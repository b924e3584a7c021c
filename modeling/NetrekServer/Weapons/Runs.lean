/-
The counters of torps over whole runs: what the weapons do keeps the accounts, and so does entering the
game after a death, since a ship waits until its torps are gone. A change of teams, an entry without a
death and the parade set counters or slots on their own; they keep the accounts if nothing is in flight
that they pass over.
-/
import NetrekServer.Conquer
import NetrekServer.Enter
import NetrekServer.Lib.Run
import NetrekServer.Weapons.Counted

namespace Netrek.Weapons

open Daemon

/-! ## Players with nothing in flight -/

/-- The player has no torps and no plasma torps in flight. -/
def Spent (s : Server) (o : Slot) : Prop := torpsInUse s o = 0 ∧ plasmasInUse s o = 0

instance (s : Server) (o : Slot) : Decidable (Spent s o) := inferInstanceAs (Decidable (_ ∧ _))

theorem Kept.spent {s : Server} (h : Kept s) {o : Slot} :
    Spent s o ↔ (s.player o).ntorp = 0 ∧ (s.player o).nplasmatorp = 0 := by
  rw [h.torps o, h.plasmas o]
  unfold Spent
  omega

/-- A player with nothing in flight may have both counters set to zero. -/
theorem Kept.reset {s : Server} (h : Kept s) {o : Slot} (ho : Spent s o) {f : Player → Player}
    (hf : ∀ p, (f p).ntorp = 0 ∧ (f p).nplasmatorp = 0) : Kept (s.modifyPlayer o f) := by
  obtain ⟨hn, hp⟩ := h.spent.1 ho
  refine h.congr (pool_modifyPlayer s o ?_)
  rw [(hf _).1, (hf _).2, hn, hp]
  exact ⟨rfl, rfl⟩

theorem Kept.changeTeam {s : Server} (h : Kept s) {k : Slot} (hk : Spent s k) (ours theirs : Word) :
    Kept (changeTeam s k ours theirs) :=
  h.reset hk fun _ => ⟨rfl, rfl⟩

/-! ## Entering -/

theorem declareWar_counters (p : Player) (mask : Word) :
    (p.declareWar mask).ntorp = p.ntorp ∧ (p.declareWar mask).nplasmatorp = p.nplasmatorp := by
  unfold Player.declareWar
  split
  · exact ⟨rfl, rfl⟩
  · simp only
    split <;> exact ⟨rfl, rfl⟩

theorem Entry.player_counters (e : Entry) (c : Setup) (m : Memory) (pno : Slot) (p : Player) :
    (e.switch (e.player c m pno p)).ntorp = 0 ∧ (e.switch (e.player c m pno p)).nplasmatorp = 0 := by
  have hplayer : (e.player c m pno p).ntorp = 0 ∧ (e.player c m pno p).nplasmatorp = 0 := by
    unfold Entry.player
    simp only
    split <;> exact ⟨rfl, rfl⟩
  unfold Entry.switch
  split
  · split
    · rw [(declareWar_counters _ _).1, (declareWar_counters _ _).2]
      exact hplayer
    · exact hplayer
  · exact hplayer

theorem pool_permitDocking (s : Server) (team : Word) : pool (permitDocking s team) = pool s := by
  refine pool_congr (fun _ => rfl) fun o => ?_
  show (if _ then _ else _ : Player).ntorp = _ ∧ (if _ then _ else _ : Player).nplasmatorp = _
  split <;> exact ⟨rfl, rfl⟩

/-- A ship sets out with its counters at 0, and all its torps spent. -/
theorem Kept.setOut {s : Server} (h : Kept s) {pno : Slot} (hp : Spent s pno) (e : Entry) : Kept (setOut s pno e) := by
  unfold Netrek.setOut enter
  simp only
  have hpool : pool (if e.sType = .starbase then permitDocking s (s.player pno).team else s) = pool s := by
    split
    · exact pool_permitDocking _ _
    · rfl
  have h1 := h.congr hpool
  have hspent : Spent (if e.sType = .starbase then permitDocking s (s.player pno).team else s) pno := by
    rw [h1.spent]
    have := h.spent.1 hp
    split
    · show (if _ then _ else _ : Player).ntorp = _ ∧ (if _ then _ else _ : Player).nplasmatorp = _
      split <;> exact this
    · exact this
  generalize (if e.sType = .starbase then permitDocking s (s.player pno).team else s) = s1 at *
  have h2 := h1.reset hspent (f := fun p => e.switch (e.player s1.setup s1.mem pno p)) fun p => Entry.player_counters e _ _ _ _
  refine h2.congr (pool_modifyPlayer _ _ ⟨rfl, rfl⟩)

/-- The gate of death: a ship that may set out again has nothing in flight. -/
theorem Kept.reenter {s : Server} (h : Kept s) (pno : Slot) (e : Entry) : Kept (reenter s pno e) := by
  unfold Netrek.reenter
  split
  · rename_i hgate
    refine h.setOut (h.spent.2 ?_) e
    simp only [maySetOut, Bool.and_eq_true, decide_eq_true_eq] at hgate
    have hn := h.torps pno
    have hp := h.plasmas pno
    omega
  · exact h

/-! ## The parade -/

theorem blowsUp_setFlags (p : Player) {w : Word} (hr : w &&& pfRobot = 0) (ho : w &&& pfObserv = 0) :
    Parade.blowsUp (p.setFlags w) = Parade.blowsUp p := by
  unfold Parade.blowsUp Player.setFlags
  simp only [Word.has_or hr, Word.has_or ho]

theorem blowsUp_clearFlags (p : Player) {w : Word} (hr : ~~~w &&& pfRobot = pfRobot) (ho : ~~~w &&& pfObserv = pfObserv) :
    Parade.blowsUp (p.clearFlags w) = Parade.blowsUp p := by
  unfold Parade.blowsUp Player.clearFlags
  simp only [Word.has_andNot hr, Word.has_andNot ho]

/-- A step of the parade that keeps the accounts, the parade itself and which ships will blow up. -/
structure March (s s' : Server) : Prop where
  pool : pool s' = pool s
  conquer : s'.conquer = s.conquer
  blowsUp : ∀ j, Parade.blowsUp (s'.player j) = Parade.blowsUp (s.player j)

namespace March

variable {α : Type} {s s' s'' : Server}

theorem refl (s : Server) : March s s := ⟨rfl, rfl, fun _ => rfl⟩

theorem trans (h : March s s') (h' : March s' s'') : March s s'' :=
  ⟨h'.pool.trans h.pool, h'.conquer.trans h.conquer, fun j => (h'.blowsUp j).trans (h.blowsUp j)⟩

/-- Counters at zero stay at zero. -/
theorem spent (h : March s s') {j : Slot} (hj : (s.player j).ntorp = 0 ∧ (s.player j).nplasmatorp = 0) :
    (s'.player j).ntorp = 0 ∧ (s'.player j).nplasmatorp = 0 := by
  have hphoton := congrFun (congrArg Lib.Pool.count h.pool) (.photon, j)
  have hplasma := congrFun (congrArg Lib.Pool.count h.pool) (.plasma, j)
  exact ⟨hphoton.trans hj.1, hplasma.trans hj.2⟩

theorem ite {p : Prop} [Decidable p] (h : March s s') : March s (if p then s' else s) := by
  split
  · exact h
  · exact refl s

theorem modifyPlayer (s : Server) (j : Slot) {f : Player → Player}
    (hf : (f (s.player j)).ntorp = (s.player j).ntorp ∧ (f (s.player j)).nplasmatorp = (s.player j).nplasmatorp)
    (hb : Parade.blowsUp (f (s.player j)) = Parade.blowsUp (s.player j)) : March s (s.modifyPlayer j f) := by
  refine ⟨pool_modifyPlayer s j hf, rfl, fun i => ?_⟩
  rw [Server.player_modifyPlayer]
  split
  · subst i; exact hb
  · rfl

theorem modifyTorp (s : Server) (k : Nat) {f : Torp → Torp} (hf : account (f (s.torp k)) = account (s.torp k)) :
    March s (s.modifyTorp k f) :=
  ⟨pool_modifyTorp s k hf, rfl, fun _ => rfl⟩

/-- Along a list: the condition of each step lasts through the steps before it. -/
theorem foldl (ok : Server → α → Prop) {f : Server → α → Server}
    (hok : ∀ {s s' : Server} {a : α}, March s s' → ok s a → ok s' a) (hf : ∀ s a, ok s a → March s (f s a)) :
    ∀ (l : List α) (s : Server), (∀ a ∈ l, ok s a) → March s (l.foldl f s)
  | [], s, _ => refl s
  | a :: l, s, h => by
    have hstep := hf s a (h a List.mem_cons_self)
    exact hstep.trans (foldl ok hok hf l _ fun b hb => hok hstep (h b (List.mem_cons_of_mem _ hb)))

/-- Ships only move or drop their cloaks. -/
theorem ships {f : Server → α → Server} (hf : ∀ s a, March s (f s a)) (l : List α) (s : Server) :
    March s (l.foldl f s) :=
  foldl (fun _ _ => True) (fun _ h => h) (fun s a _ => hf s a) l s fun _ _ => trivial

theorem decloak (s : Server) : March s (Parade.decloak s) := by
  refine ships (fun s j => ?_) _ s
  split
  · exact refl s
  · refine modifyPlayer s j ⟨?_, ?_⟩ ?_
    · simp only; split <;> rfl
    · simp only; split <;> rfl
    · simp only
      split
      · rw [blowsUp_clearFlags _ (by decide) (by decide), blowsUp_setFlags _ (by decide) (by decide),
          blowsUp_clearFlags _ (by decide) (by decide)]
      · rw [blowsUp_setFlags _ (by decide) (by decide), blowsUp_clearFlags _ (by decide) (by decide)]

theorem shipsRing (s : Server) : March s (Parade.shipsRing s) := by
  refine (decloak s).trans (ships (fun s hj => ?_) _ _)
  refine modifyPlayer s hj.2 ⟨?_, ?_⟩ ?_ <;> (simp only; split <;> rfl)

theorem parade (s : Server) : March s (Parade.parade s) := by
  unfold Parade.parade
  refine ships (fun s hj => ?_) _ s
  exact modifyPlayer s hj.2 ⟨rfl, rfl⟩ rfl

theorem goHome (home : Slot → Int × Int) (s : Server) : March s (Parade.goHome home s) := by
  refine ships (fun s j => ?_) _ s
  split
  · exact refl s
  · exact modifyPlayer s j ⟨rfl, rfl⟩ rfl

/-- Plasma slots that are free may be freed. -/
theorem deplasma (h : ∀ i < maxPlasma * maxPlayer, (s.torp (firstPlasma + i)).status = .tfree) :
    March s (Parade.deplasma s) := by
  refine foldl (fun s i => account (s.torp (firstPlasma + i)) = none) ?_ ?_ _ s ?_
  · intro s s' i hm h
    rw [torp_account hm.pool, h]
  · intro s i h
    refine modifyTorp s _ ?_
    rw [h, account_eq_none]
  · intro i hi
    exact account_eq_none.2 (h i (List.mem_range.1 hi))

/-- A ring of plasma torps of the same player may be moved. -/
theorem plasmaRing {player : Slot} (hp : s.conquer.player = some player)
    (h : ∀ k ∈ Parade.ringSlots, account (s.torp k) = some (.plasma, player)) : March s (Parade.plasmaRing s) := by
  unfold Parade.plasmaRing
  rw [hp]
  refine foldl (fun s pn => account (s.torp (firstPlasma + 2 * pn)) = some (.plasma, player)) ?_ ?_ _ s ?_
  · intro s s' pn hm h
    rw [torp_account hm.pool, h]
  · intro s pn h
    refine modifyTorp s _ ?_
    rw [h]
    rfl
  · intro pn hpn
    exact h _ (List.mem_map_of_mem hpn)

theorem plasmaExplode (h : ∀ k ∈ Parade.ringSlots, account (s.torp k) ≠ none) : March s (Parade.plasmaExplode s) := by
  refine foldl (fun s k => account (s.torp k) ≠ none) ?_ ?_ _ s h
  · intro s s' k hm h
    rwa [torp_account hm.pool]
  · intro s k h
    refine modifyTorp s k ?_
    rw [account_some fun hfree => h (account_eq_none.2 hfree)]
    rfl

/-- Ships with nothing in flight may blow up. -/
theorem shipsExplode (h : ∀ j, Parade.blowsUp (s.player j) = true → (s.player j).ntorp = 0 ∧ (s.player j).nplasmatorp = 0) :
    March s (Parade.shipsExplode s) := by
  refine foldl (fun s j => Parade.blowsUp (s.player j) = true → (s.player j).ntorp = 0 ∧ (s.player j).nplasmatorp = 0)
    ?_ ?_ _ s fun j _ => h j
  · intro s s' j hm h hb
    rw [hm.blowsUp] at hb
    exact hm.spent (h hb)
  · intro s j h
    unfold Parade.shipExplode
    split
    · rename_i hb
      refine modifyPlayer s j ⟨(h hb).1.symm, (h hb).2.symm⟩ ?_
      rw [hb]
      simp only [Parade.blowsUp, Bool.and_eq_true] at hb ⊢
      exact ⟨⟨rfl, hb.1.2⟩, hb.2⟩
    · exact refl s

theorem begin (h : s.conquer.timer = Parade.timerDecloak → s.conquer.type ≠ .special →
    ∀ i < maxPlasma * maxPlayer, (s.torp (firstPlasma + i)).status = .tfree) : March s (Parade.begin s) := by
  unfold Parade.begin
  split
  · rename_i ht
    split
    · rename_i hs
      refine (decloak s).trans (deplasma fun i hi => ?_)
      have hfree := account_eq_none.2 (h ht hs i hi)
      exact account_eq_none.1 ((torp_account (decloak s).pool _).trans hfree)
    · exact decloak s
  · exact refl s

theorem rings (h : s.conquer.timer < Parade.timerDecloak → s.conquer.type ≠ .special →
    ∃ player, s.conquer.player = some player ∧ ∀ k ∈ Parade.ringSlots, account (s.torp k) = some (.plasma, player)) :
    March s (Parade.rings s) := by
  unfold Parade.rings
  split
  · rename_i ht
    refine trans ?_ (shipsRing _)
    split
    · rename_i hs
      obtain ⟨player, hp, hall⟩ := h ht hs
      exact plasmaRing hp hall
    · exact refl s
  · exact refl s

end March

/-- The end of the parade keeps the accounts if the ring is in use and the ships that blow up are not. -/
theorem pool_finish {s : Server} (hring : s.conquer.type ≠ .special → ∀ k ∈ Parade.ringSlots, account (s.torp k) ≠ none)
    (hships : s.conquer.type = .endOfGame → ∀ j, Parade.blowsUp (s.player j) = true →
      (s.player j).ntorp = 0 ∧ (s.player j).nplasmatorp = 0)
    (galaxy : Fin maxPlanets → Planet) (home : Slot → Int × Int) : pool (Parade.finish galaxy home s) = pool s := by
  have hstart : March s (s.modifyStatus fun t => { t with gameup := t.gameup &&& ~~~(guPaused ||| guConquer) }) :=
    ⟨rfl, rfl, fun _ => rfl⟩
  unfold Parade.finish
  simp only
  generalize (s.modifyStatus fun t => { t with gameup := t.gameup &&& ~~~(guPaused ||| guConquer) }) = s1 at *
  have hring1 (hs : s.conquer.type ≠ .special) : ∀ k ∈ Parade.ringSlots, account (s1.torp k) ≠ none := by
    intro k hk
    rw [torp_account hstart.pool]
    exact hring hs k hk
  rw [hstart.conquer]
  split
  · rename_i hs
    have hexplode := hstart.trans (March.plasmaExplode (hring1 (by rw [hs]; simp)))
    have hend : March s (Parade.shipsExplode (Parade.plasmaExplode s1)) := by
      refine hexplode.trans (March.shipsExplode fun j hb => ?_)
      rw [hexplode.blowsUp] at hb
      exact hexplode.spent (hships hs j hb)
    generalize Parade.shipsExplode (Parade.plasmaExplode s1) = s2 at *
    exact hend.pool
  · exact (hstart.trans (March.goHome home _)).pool
  · rename_i hs
    exact ((hstart.trans (March.plasmaExplode (hring1 (by rw [hs]; simp)))).trans (March.goHome home _)).pool

/-- The parade passes over nothing that flies: no plasma torp flies when it takes the slots, its ring is
made of plasma torps that the winner has fired, and the ships that it blows up have nothing in flight. -/
def ParadeClean (s : Server) : Prop :=
  s.conquer.type ≠ .special →
    (s.conquer.timer - 1 = Parade.timerDecloak → ∀ i < maxPlasma * maxPlayer, (s.torp (firstPlasma + i)).status = .tfree) ∧
    (s.conquer.timer - 1 < Parade.timerDecloak → ∃ player, s.conquer.player = some player ∧
      ∀ k ∈ Parade.ringSlots, (s.torp k).status ≠ .tfree ∧ (s.torp k).owner = player) ∧
    (s.conquer.timer - 1 ≤ 0 → s.conquer.type = .endOfGame → ∀ j, Parade.blowsUp (s.player j) = true → Spent s j)

theorem ringSlots_plasma {k : Nat} (hk : k ∈ Parade.ringSlots) : firstPlasma ≤ k ∧ k < numTorps := by
  obtain ⟨pn, hpn, rfl⟩ := List.mem_map.1 hk
  rw [List.mem_range] at hpn
  simp only [firstPlasma, numTorps, maxTorp, maxPlasma, maxPlayer] at *
  omega

/-- A step of the parade that passes over nothing that flies keeps the counts. -/
theorem Kept.conquerUpdate {s : Server} (h : Kept s) (hclean : ParadeClean s) (galaxy : Fin maxPlanets → Planet)
    (home : Slot → Int × Int) : Kept (Parade.conquerUpdate galaxy home s) := by
  have hring (ht : s.conquer.timer - 1 < Parade.timerDecloak) (hs : s.conquer.type ≠ .special) :
      ∃ player, s.conquer.player = some player ∧
        ∀ k ∈ Parade.ringSlots, account (s.torp k) = some (.plasma, player) := by
    obtain ⟨player, hp, hall⟩ := (hclean hs).2.1 ht
    refine ⟨player, hp, fun k hk => ?_⟩
    obtain ⟨hge, hlt⟩ := ringSlots_plasma hk
    rw [account_some (hall k hk).1, h.plasma_type hge hlt (hall k hk).1, (hall k hk).2]
  have hbegin : March (Parade.tick s) (Parade.begin (Parade.tick s)) := March.begin fun ht hs => (hclean hs).1 ht
  have hrings : March (Parade.tick s) (Parade.rings (Parade.begin (Parade.tick s))) := by
    refine hbegin.trans (March.rings fun ht hs => ?_)
    rw [hbegin.conquer] at ht hs ⊢
    obtain ⟨player, hp, hall⟩ := hring ht hs
    exact ⟨player, hp, fun k hk => (torp_account hbegin.pool k).trans (hall k hk)⟩
  have hm := hrings.trans (March.ite (p := (Parade.rings (Parade.begin (Parade.tick s))).conquer.timer = Parade.timerParade)
    (March.parade _))
  unfold Parade.conquerUpdate
  simp only
  generalize (if (Parade.rings (Parade.begin (Parade.tick s))).conquer.timer = Parade.timerParade then
    Parade.parade (Parade.rings (Parade.begin (Parade.tick s))) else Parade.rings (Parade.begin (Parade.tick s))) = s1 at *
  have hkept : Kept s1 := h.congr (hm.pool.trans rfl)
  split
  · exact hkept
  · rename_i htimer
    rw [hm.conquer] at htimer
    have hend : s.conquer.timer - 1 ≤ 0 := not_lt.1 htimer
    refine hkept.congr (pool_finish (fun hs k hk => ?_) (fun hs j hb => ?_) galaxy home)
    · rw [hm.conquer] at hs
      obtain ⟨player, -, hall⟩ := hring (lt_of_le_of_lt hend (by decide)) hs
      rw [torp_account hm.pool]
      exact fun hn => Option.some_ne_none _ ((hall k hk).symm.trans hn)
    · rw [hm.conquer] at hs
      rw [hm.blowsUp] at hb
      have hzero := h.spent.1 ((hclean (by rw [show s.conquer.type = _ from hs]; simp)).2.2 hend hs j hb)
      exact hm.spent hzero

end Netrek.Weapons
