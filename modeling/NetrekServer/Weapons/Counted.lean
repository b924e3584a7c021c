/-
The counters of torps over whole runs: torps are fired, sent back by phasers and detonated, ships enter
the game, change teams and are paraded, and the daemon moves what flies. The places of the source that
set a counter or a slot on their own break the accounts unless the player has nothing in flight then.
-/
import NetrekServer.Conquer
import NetrekServer.Enter
import NetrekServer.Lib.Run
import NetrekServer.Weapons.Account

namespace Netrek.Weapons

open Daemon

/-! ## The search for a slot -/

/-- The search stops on a free slot, or behind slots that are all in use. -/
theorem searchFree_spec (s : Server) : ∀ (n k : Nat),
    (k ≤ searchFree s k n ∧ searchFree s k n < k + n ∧ (s.torp (searchFree s k n)).status = .tfree) ∨
      (searchFree s k n = k + n ∧ ∀ i, k ≤ i → i < k + n → (s.torp i).status ≠ .tfree)
  | 0, k => .inr ⟨rfl, fun i hi hlt => by omega⟩
  | n + 1, k => by
    unfold searchFree
    split
    · rename_i hfree
      exact .inl ⟨Nat.le_refl k, by omega, hfree⟩
    · rename_i huse
      rcases searchFree_spec s n (k + 1) with ⟨hle, hlt, hfree⟩ | ⟨he, hall⟩
      · exact .inl ⟨by omega, by omega, hfree⟩
      · refine .inr ⟨by omega, fun i hi hlt => ?_⟩
        rcases Nat.eq_or_lt_of_le hi with rfl | hgt
        · exact huse
        · exact hall i hgt (by omega)

/-- With fewer than eight torps counted, the search finds a free slot among the player's own. -/
theorem Kept.search {s : Server} (h : Kept s) {me : Slot} (hn : (s.player me).ntorp ≠ maxTorp) :
    firstTorpOf me ≤ searchFree s (firstTorpOf me) maxTorp ∧ searchFree s (firstTorpOf me) maxTorp ≤ lastTorpOf me ∧
      (s.torp (searchFree s (firstTorpOf me) maxTorp)).status = .tfree := by
  rcases searchFree_spec s maxTorp (firstTorpOf me) with ⟨hle, hlt, hfree⟩ | ⟨-, hall⟩
  · exact ⟨hle, by unfold lastTorpOf; unfold firstTorpOf at hlt ⊢; omega, hfree⟩
  -- eight slots in use make the counter eight
  · refine absurd ?_ hn
    rw [h.torps]
    unfold torpsInUse
    rw [Finset.filter_true_of_mem, Nat.card_Ico]
    · simp
    · intro i hi
      rw [Finset.mem_Ico] at hi
      exact hall i hi.1 hi.2

/-! ## Launches -/

theorem account_newTorp (me : Slot) (p : Player) (ty : TType) (attributes : Word) (dir : UInt8)
    (turns damage gspeed fuse : Int) :
    account (newTorp me p ty attributes dir turns damage gspeed fuse) = some (ty, me) := rfl

/-- A torp is fired into a free slot, if the player has one left. -/
theorem Kept.fireTorp {s : Server} (h : Kept s) {me : Slot} (hn : (s.player me).ntorp ≠ maxTorp) (course : UInt8)
    (attributes : Word) : Kept (fireTorp s me course attributes) := by
  have ho := me.isLt
  obtain ⟨hge, hle, hfree⟩ := h.search hn
  have hpass : pool (Weapons.fireTorp s me course attributes) =
      (pool s).pass (searchFree s (firstTorpOf me) maxTorp) (some (.photon, me)) := by
    unfold Weapons.fireTorp
    simp only [pool_record, pool_draw_modifyTorp]
    exact pool_launch hfree (fun ty => by cases ty <;> simp [inFlight]) (account_newTorp _ _ _ _ _ _ _ _ _)
  refine h.pass ?_ hpass ?_
  · simp only [firstTorpOf, lastTorpOf, numTorps, maxTorp, maxPlayer, maxPlasma] at *
    omega
  · rintro a ⟨⟩
    simp only [InPlace, firstTorpOf, lastTorpOf, maxTorp, maxPlayer] at *
    omega

theorem torpRefusal_none {c : Setup} {p : Player} {course : UInt8} (h : torpRefusal c p course = none) :
    p.ntorp ≠ maxTorp := by
  intro he
  unfold torpRefusal at h
  simp only [he, if_true] at h
  cases h

/-- A warning about heat comes first, or not. -/
theorem warn_ite (s : Server) (b : Bool) (me : Slot) (text : String) :
    ∃ log, (if b then s.warn me text else s) = { s with log := log } := by
  cases b with
  | true => exact ⟨_, rfl⟩
  | false => exact ⟨s.log, rfl⟩

/-- What `ntorp` can do: it adds to the log, and fires a torp if the player has fewer than eight. -/
theorem ntorp_cases (s : Server) (me : Slot) (course : UInt8) (attributes : Word) : ∃ log,
    ntorp s me course attributes = { s with log := log } ∨
      (s.player me).ntorp ≠ maxTorp ∧ ntorp s me course attributes = fireTorp { s with log := log } me course attributes := by
  unfold ntorp
  simp only
  split
  · exact ⟨s.log, .inl rfl⟩
  split
  · exact ⟨s.log, .inl rfl⟩
  obtain ⟨log, hlog⟩ := warn_ite s ((s.player me).flags.has pfWep) me
    "Torpedo launch tubes have exceeded maximum safe temperature!"
  rw [hlog]
  split
  · exact ⟨log, .inl rfl⟩
  · split
    · exact ⟨_, .inl rfl⟩
    · rename_i hnone
      exact ⟨log, .inr ⟨torpRefusal_none hnone, rfl⟩⟩

theorem Kept.ntorp {s : Server} (h : Kept s) (me : Slot) (course : UInt8) (attributes : Word) :
    Kept (ntorp s me course attributes) := by
  obtain ⟨log, he | ⟨hn, he⟩⟩ := ntorp_cases s me course attributes
  · rw [he]
    exact h.congr rfl
  · have hlog : Kept { s with log := log } := h.congr rfl
    rw [he]
    exact hlog.fireTorp hn course attributes

theorem Kept.firePlasma {s : Server} (h : Kept s) {me : Slot} {k : Nat} (hge : firstPlasma ≤ k) (hlt : k < numTorps)
    (hfree : (s.torp k).status = .tfree) (course : UInt8) (attributes : Word) :
    Kept (firePlasma s me k course attributes) := by
  have hpass : pool (Weapons.firePlasma s me k course attributes) = (pool s).pass k (some (.plasma, me)) := by
    unfold Weapons.firePlasma
    simp only [pool_record]
    exact pool_launch hfree (fun ty => by cases ty <;> simp [inFlight]) (account_newTorp _ _ _ _ _ _ _ _ _)
  refine h.pass hlt hpass ?_
  rintro a ⟨⟩
  exact hge

/-- A plasma torp is fired, or refused. -/
theorem Kept.nplasmatorp {s : Server} (h : Kept s) (me : Slot) (course : UInt8) (attributes : Word) :
    Kept (nplasmatorp s me course attributes) := by
  unfold Weapons.nplasmatorp
  simp only
  split
  · exact h.congr (pool_warn _ _ _)
  obtain ⟨log, hlog⟩ := warn_ite s ((s.player me).flags.has pfWep) me
    "Plasma torpedo launch tube has exceeded the maximum safe temperature!"
  have hwarn : Kept { s with log := log } := h.congr rfl
  rw [hlog]
  split
  · exact hwarn
  split
  · exact hwarn.congr (pool_warn _ _ _)
  split
  · exact hwarn.congr (pool_warn _ _ _)
  rename_i hin
  split
  · exact hwarn.congr (pool_warn _ _ _)
  have hme := me.isLt
  rcases searchFree_spec { s with log := log } maxPlasma (firstPlasmaOf me) with ⟨hle, hlt, hfree⟩ | ⟨he, -⟩
  · refine hwarn.firePlasma ?_ ?_ hfree course attributes
    · exact le_trans (Nat.le_add_right _ _) hle
    · simp only [firstPlasmaOf, firstPlasma, numTorps, maxTorp, maxPlasma, maxPlayer] at *
      omega
  · omega

/-! ## Phasers -/

/-- The phaser aims at a plasma torp only if one moves in the slot. -/
def Aimed (s : Server) (aim : Aim Hit) : Prop :=
  ∀ k, aim.target = some (.plasma k) → firstPlasma ≤ k ∧ k < numTorps ∧ (s.torp k).status = .tmove

theorem aimShip_aimed {s : Server} {me : Slot} {course : UInt8} {aim : Aim Hit} (h : Aimed s aim) (j : Slot) :
    Aimed s (aimShip s me course aim j) := by
  unfold aimShip
  simp only
  split
  · exact h
  · split
    · intro k hk
      cases hk
    · exact h

/-- The phaser takes aim at plasma torps that move. -/
theorem aimPlasma_aimed {s : Server} {me : Slot} {course : UInt8} {aim : Aim Hit} (h : Aimed s aim) {k : Nat}
    (hk : k ∈ plasmaSlots) : Aimed s (aimPlasma s me course aim k) := by
  unfold aimPlasma
  simp only
  split
  · exact h
  · rename_i hmove
    split
    · exact h
    · split
      · rintro i ⟨⟩
        obtain ⟨n, hn, rfl⟩ := List.mem_map.1 hk
        rw [List.mem_range] at hn
        exact ⟨Nat.le_add_right _ _, Nat.add_lt_add_left hn _, not_not.1 fun hne => hmove (.inl hne)⟩
      · exact h

theorem aimPhaser_aimed (s : Server) (me : Slot) (course : UInt8) : Aimed s (aimPhaser s me course) := by
  unfold aimPhaser
  simp only
  refine List.foldlRecOn plasmaSlots _ ?_ fun aim h k hk => aimPlasma_aimed h hk
  refine List.foldlRecOn (List.finRange maxPlayer) _ ?_ fun aim h j _ => aimShip_aimed h j
  rintro k ⟨⟩

/-- A plasma torp passes from its owner to the player who fired the phaser. -/
theorem pool_takePlasma {s : Server} {me : Slot} {k : Nat} (hty : (s.torp k).type = .plasma)
    (huse : (s.torp k).status ≠ .tfree) (damage turns gspeed : Int) (dir : UInt8) (ph : Int) :
    pool (takePlasma s me k damage turns gspeed dir ph) = (pool s).pass k (some (.plasma, me)) := by
  unfold takePlasma
  simp only
  refine pool_pass (fun i => ?_) fun a => ?_
  · rw [Server.torp_modifyTorp]
    split
    · rw [account_some (by exact huse)]
      exact congrArg (fun ty => some (ty, me)) hty
    · rfl
  · rw [account_some huse, hty]
    rw [counter_modifyTorp, counter_add (t := .plasma) (d := 1) fun ty => by cases ty <;> simp [inFlight]]
    rw [counter_add (t := .plasma) (d := -1) fun ty => by cases ty <;> simp [inFlight, Int.sub_eq_add_neg]]
    simp only [Option.some.injEq]
    split <;> split <;> omega

theorem Kept.pingPong {s : Server} (h : Kept s) {me : Slot} {k : Nat} (hge : firstPlasma ≤ k) (hlt : k < numTorps)
    (huse : (s.torp k).status ≠ .tfree) (ph : Int) : Kept (pingPong s me k ph) := by
  have hty := h.plasma_type hge hlt huse
  unfold Weapons.pingPong
  simp only
  split
  · have hdrawn : Kept s.draw.2.draw.2 := h.congr rfl
    refine hdrawn.pass hlt (pool_takePlasma hty huse _ _ _ _ _) ?_
    rintro a ⟨⟩
    exact hge
  · refine h.pass hlt (pool_takePlasma hty huse _ _ _ _ _) ?_
    rintro a ⟨⟩
    exact hge

/-- A plasma torp that a phaser hits explodes, and stays counted till then. -/
theorem Kept.phaserPlasma {s : Server} (h : Kept s) {me : Slot} {k : Nat} (hge : firstPlasma ≤ k) (hlt : k < numTorps)
    (huse : (s.torp k).status ≠ .tfree) (range : Int) : Kept (phaserPlasma s me k range) := by
  unfold Weapons.phaserPlasma
  simp only
  split
  · apply Kept.pingPong _ hge hlt
    · exact huse
    · apply h.congr
      rw [pool_modifyPhaser, pool_record]
  · refine h.congr ?_
    rw [pool_warn, pool_modifyTorp, pool_modifyPhaser, pool_record]
    show account { s.torp k with status := .tdet, whodet := some me } = account (s.torp k)
    rw [account_some huse]
    rfl

/-- A phaser changes no torp but the one it hits. -/
theorem Kept.firePhaser {s : Server} (h : Kept s) (me : Slot) (course : UInt8) : Kept (firePhaser s me course) := by
  have haim := aimPhaser_aimed s me course
  unfold Weapons.firePhaser
  simp only
  generalize aimPhaser s me course = aim at *
  split
  · refine h.congr ?_
    rw [pool_warn, pool_record, pool_modifyPlayer, pool_modifyPhaser]
    exact ⟨rfl, rfl⟩
  · refine h.congr ?_
    unfold phaserShip
    simp only
    rw [pool_warn, pool_record, pool_modifyPhaser, pool_record, pool_record, pool_modifyPlayer, pool_modifyPhaser]
    exact ⟨rfl, rfl⟩
  · rename_i k hk
    obtain ⟨hge, hlt, hmove⟩ := haim k hk
    refine Kept.phaserPlasma (h.congr ?_) hge hlt ?_ _
    · rw [pool_record, pool_record, pool_modifyPlayer, pool_modifyPhaser]
      exact ⟨rfl, rfl⟩
    · show (s.torp k).status ≠ .tfree
      rw [hmove]
      simp

/-- A phaser is fired, or refused. -/
theorem Kept.phaser {s : Server} (h : Kept s) (me : Slot) (course : UInt8) : Kept (phaser s me course) := by
  unfold Weapons.phaser
  split
  · exact h
  split
  · exact h.congr (pool_warn _ _ _)
  simp only
  obtain ⟨log, hlog⟩ := warn_ite s ((s.player me).flags.has pfWep) me "Weapons overheated"
  have hwarn : Kept { s with log := log } := h.congr rfl
  rw [hlog]
  split
  · exact hwarn
  split
  · exact hwarn.congr (pool_warn _ _ _)
  · exact hwarn.firePhaser me course

/-! ## Detonation -/

/-- A torp in use stays in use when it is detonated or turned off. -/
theorem pool_status {s : Server} {k : Nat} (huse : (s.torp k).status ≠ .tfree) (st : TStatus) (hst : st ≠ .tfree)
    {f : Torp → Torp} (hf : ∀ t, (f t).status = st ∧ (f t).type = t.type ∧ (f t).owner = t.owner) :
    pool (s.modifyTorp k f) = pool s := by
  obtain ⟨hs, hty, ho⟩ := hf (s.torp k)
  refine pool_modifyTorp s k ?_
  rw [account_some huse, account_some (by rw [hs]; exact hst), hty, ho]

theorem pool_detTorp (me j : Slot) (s : Server) (k : Nat) : pool (detTorp me j s k) = pool s := by
  unfold detTorp
  simp only
  split
  · rename_i hdet
    have hmove : (s.torp k).status = .tmove := by
      simp only [Bool.and_eq_true, beq_iff_eq] at hdet
      exact hdet.1.2
    rw [pool_record]
    exact pool_status (by rw [hmove]; simp) .tdet (by simp) fun _ => ⟨rfl, rfl, rfl⟩
  · rfl

theorem pool_offTorp (me : Slot) (s : Server) (k : Nat) : pool (offTorp me s k) = pool s := by
  unfold offTorp
  split
  · rename_i hmove
    rw [pool_record]
    exact pool_status (by rw [hmove]; simp) .toff (by simp) fun _ => ⟨rfl, rfl, rfl⟩
  · rfl

/-- What keeps the pool at every item keeps it along a list. -/
theorem pool_foldl {α : Type} {f : Server → α → Server} (hf : ∀ s a, pool (f s a) = pool s) :
    ∀ (l : List α) (s : Server), pool (l.foldl f s) = pool s
  | [], _ => rfl
  | a :: l, s => (pool_foldl hf l (f s a)).trans (hf s a)

/-- Torps that are detonated stay in use. -/
theorem pool_detothers (s : Server) (me : Slot) : pool (detothers s me) = pool s := by
  unfold detothers
  simp only
  split
  · rfl
  split
  · exact pool_warn _ _ _
  obtain ⟨log, hlog⟩ := warn_ite s ((s.player me).flags.has pfWep) me "Weapons overheated"
  rw [hlog]
  split
  · rfl
  · rw [pool_foldl, pool_modifyPlayer]
    · rfl
    · exact ⟨rfl, rfl⟩
    · intro s j
      split
      · rfl
      · exact pool_foldl (pool_detTorp me j) _ _

theorem pool_handleDetMReq (s : Server) (me : Slot) (tnum : UInt16) (sendShort : Bool) :
    pool (handleDetMReq s me tnum sendShort) = pool s := by
  unfold handleDetMReq
  simp only
  split
  · rfl
  split
  · rfl
  split
  · exact pool_foldl (pool_offTorp me) _ _
  · exact pool_offTorp me s _

end Netrek.Weapons
