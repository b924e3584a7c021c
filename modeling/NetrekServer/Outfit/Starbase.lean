/-
At most one starbase for a team. `getEntry` and `do_refit` look at the ships in play only, so a
request that is accepted while another is on its way into the game is not seen. As long as no two
requests of a team are on their way at once, a team never has two starbases in play.

A player claims a team from the moment its request for a starbase is accepted until it dies or
leaves, and the claims are exclusive.
-/
import NetrekServer.Lib.Exclusive
import NetrekServer.Lib.Run
import NetrekServer.Outfit.Entry

namespace Netrek.Outfit

open Netrek.Lib
open Netrek.Queue (quGodObs)

/-! ## Claims -/

/-- The team that a process is bringing a starbase into the game for. -/
def onTheWay (y : Yard) (i : Slot) : Option Word :=
  match y.stage i with
  | .accepted tno .starbase => some (entryTeam y i tno)
  | .installed => if (y.player i).ship.type = .starbase then some (y.player i).team else none
  | _ => none

/-- The team that a player has a starbase of, in play or on its way. -/
def claim (y : Yard) (i : Slot) : Option Word :=
  if isBase (y.player i) (y.player i).team then some (y.player i).team else onTheWay y i

/-- The process enters for no team, whatever team it picks. -/
def independent (y : Yard) (i : Slot) : Bool := y.indie i || (y.player i).wQueue == quGodObs

/-- Nobody else is on the way with a starbase of the team that the player enters with; an independent is not
checked against starbases of its own kind, so there must be none in play either. -/
def unclaimed (y : Yard) (i : Slot) (team : Word) : Prop :=
  ∀ j, j ≠ i → onTheWay y j ≠ some team ∧ (independent y i = true → isBase (y.player j) team = false)

/-! ## Runs -/

/-- What everything else leaves alone: the mode, and who is in play in what. -/
def seat (p : Player) : PStatus × Word × ShipType × Nat := (p.status, p.team, p.ship.type, p.wQueue)

/-- `play` stands for everything but the steps of the claim. -/
def lawful (y : Yard) : Step → Prop
  | .play m _ => m.status.gameup.has guChaos = false ∧ ∀ i, seat (m.players i) = seat (y.player i)
  | _ => True

/-- Whenever a starbase is granted, nobody else is on the way with one. -/
def ok (o : Options) (y : Yard) : Step → Prop
  | .request i mask offense teamPick shipPick =>
    match y.stage i with
    | .outfit switching =>
      match getEntry o y i mask offense switching teamPick shipPick with
      | .ok (tno, .starbase) => unclaimed y i (entryTeam y i tno)
      | _ => True
    | _ => True
  | .refit i type offense =>
    match mayRefit o y i (shipTypes.getD type.toNat .scout) offense with
    | .ok .starbase => ∀ j, j ≠ i → onTheWay y j ≠ some (y.player i).team
    | _ => True
  | _ => True

/-- The server starts without players. -/
structure Start (y : Yard) : Prop where
  calm : y.mode guChaos = false
  ships : ∀ t, (y.server.setup.shipvals t).type = t
  free : ∀ i, (y.player i).status = .pfree
  away : ∀ i, y.stage i = .away

/-- A ship in play belongs to a process that plays, and a team is claimed once. -/
structure Ordered (y : Yard) : Prop where
  calm : y.mode guChaos = false
  ships : ∀ t, (y.server.setup.shipvals t).type = t
  aboard : ∀ i, (y.player i).status = .palive → y.stage i = .playing
  claims : Exclusive (claim y)

/-! ## What the checks say -/

@[simp] theorem refuseIf_bind_ok {α : Type} {b : Bool} {r : Refusal} {f : Unit → Except Refusal α} {x : α} :
    (refuseIf b r >>= f) = .ok x ↔ b = false ∧ f () = .ok x := by
  cases b <;> simp [refuseIf, bind, Except.bind]

theorem bind_ok {α β : Type} {a : Except Refusal α} {f : α → Except Refusal β} {x : β} (h : (a >>= f) = .ok x) :
    ∃ z, a = .ok z ∧ f z = .ok x := by
  cases a with
  | error r => cases h
  | ok z => exact ⟨z, rfl, h⟩

/-- With chaos off, a starbase is granted only if no other one of the team is in play. -/
theorem baseTaken_ok {o : Options} {y : Yard} {me : Slot} {team : Word} (hc : y.mode guChaos = false)
    (h : baseTaken o y me team = .ok ()) : ∀ j, j ≠ me → isBase (y.player j) team = false := by
  intro j hj
  unfold baseTaken refuseIf at h
  rw [hc] at h
  have h0 : otherBases y me team = 0 := by
    by_contra hne
    have hpos : 0 < otherBases y me team := by omega
    simp [hpos] at h
  unfold otherBases at h0
  rw [List.countP_eq_zero] at h0
  have := h0 j (List.mem_finRange j)
  simp only [Bool.and_eq_true, bne_iff_ne, ne_eq, not_and, Bool.not_eq_true] at this
  exact this hj

theorem entryBase_ok {o : Options} {y : Yard} {me : Slot} {offense : ℚ} {team : Word}
    (h : entryBase o y me offense team = .ok ()) : baseTaken o y me team = .ok () := by
  unfold entryBase baseTurns baseRank baseOffense baseDefence baseEconomy at h
  simp only [refuseIf_bind_ok] at h
  exact h.2.2.2.2.2

theorem refitBase_ok {o : Options} {y : Yard} {me : Slot} {offense : ℚ} (h : refitBase o y me offense = .ok ()) :
    baseTaken o y me (y.player me).team = .ok () := by
  unfold refitBase baseRank baseOffense at h
  simp only [refuseIf_bind_ok] at h
  obtain ⟨⟨⟩, hb, _⟩ := bind_ok h.2.2
  exact hb

/-- A request that is accepted picks one of the four teams. -/
theorem getEntry_ok {o : Options} {y : Yard} {me : Slot} {mask : Word} {offense : ℚ} {switching teamPick shipPick : Int}
    {tno : Nat} {sType : ShipType} (h : getEntry o y me mask offense switching teamPick shipPick = .ok (tno, sType)) :
    tno ≤ 3 ∧ (sType = .starbase → baseTaken o y me (1 <<< tno) = .ok ()) := by
  unfold getEntry at h
  simp only [refuseIf_bind_ok, decide_eq_false_iff_not] at h
  obtain ⟨hteam, _, _, _, _, h⟩ := h
  obtain ⟨_, _, h⟩ := bind_ok h
  by_cases hb : onlyShipType o (shipTypes.getD shipPick.toNat .scout) = .starbase
  · rw [if_pos hb] at h
    obtain ⟨⟨⟩, he, h⟩ := bind_ok h
    cases h
    exact ⟨by omega, fun _ => entryBase_ok he⟩
  · rw [if_neg hb] at h
    cases h
    exact ⟨by omega, fun h => absurd h hb⟩

/-- A refit to a starbase is granted only if no other one of the team is in play. -/
theorem mayRefit_ok {o : Options} {y : Yard} {me : Slot} {type : ShipType} {offense : ℚ}
    (h : mayRefit o y me type offense = .ok .starbase) : baseTaken o y me (y.player me).team = .ok () := by
  unfold mayRefit at h
  obtain ⟨_, _, h⟩ := bind_ok h
  obtain ⟨_, _, h⟩ := bind_ok h
  simp only [refuseIf_bind_ok] at h
  obtain ⟨_, _, h⟩ := h
  obtain ⟨_, _, h⟩ := bind_ok h
  by_cases hb : onlyShipType o type = .starbase
  · rw [if_pos hb] at h
    obtain ⟨⟨⟩, he, _⟩ := bind_ok h
    exact refitBase_ok he
  · rw [if_neg hb] at h
    exact absurd (Except.ok.inj h) hb

/-! ## Claims that stay -/

theorem isBase_seat {p q : Player} (h : seat p = seat q) (team : Word) : isBase p team = isBase q team := by
  unfold seat at h
  simp only [Prod.mk.injEq] at h
  unfold isBase
  rw [h.1, h.2.1, h.2.2.1]

theorem claim_congr {y y' : Yard} {i : Slot} (hp : seat (y'.player i) = seat (y.player i))
    (hs : y'.stage i = y.stage i) (hi : y'.indie i = y.indie i) : claim y' i = claim y i := by
  have hb := isBase_seat hp (y.player i).team
  unfold seat at hp
  simp only [Prod.mk.injEq] at hp
  unfold claim onTheWay entryTeam
  rw [hs, hi, hp.2.1, hb, hp.2.2.1, hp.2.2.2]

/-- A claim in play or on the way. -/
theorem claim_some {y : Yard} {i : Slot} {team : Word} (h : claim y i = some team) :
    isBase (y.player i) team = true ∨ onTheWay y i = some team := by
  unfold claim at h
  split at h
  · rename_i hb
    rw [Option.some.injEq] at h
    rw [← h]
    exact .inl hb
  · exact .inr h

/-- A process that is neither on the way nor in play claims nothing. -/
theorem claim_none {y : Yard} {i : Slot} (hp : (y.player i).status ≠ .palive) (hw : onTheWay y i = none) :
    claim y i = none := by
  unfold claim isBase
  simp [hp, hw]

/-! ## Frames -/

/-- A change of one player that keeps its seat keeps every seat. -/
theorem seat_modifyPlayer (m : Memory) (i j : Slot) {f : Player → Player} (hf : ∀ p, seat (f p) = seat p) :
    seat ((m.modifyPlayer i f).players j) = seat (m.players j) := by
  unfold Memory.modifyPlayer
  simp only [Function.update_apply]
  split
  · rename_i h
    rw [hf, h]
  · rfl

theorem seat_bayReleaseOne (m : Memory) (base j : Slot) (i : Fin numBays) :
    seat ((Dock.bayReleaseOne base m i).players j) = seat (m.players j) := by
  unfold Dock.bayReleaseOne
  split
  · rfl
  · refine (seat_modifyPlayer _ _ _ ?_).trans (seat_modifyPlayer _ _ _ ?_) <;> intro p <;> rfl

theorem seat_bayReleaseAll (m : Memory) (base j : Slot) :
    seat ((Dock.bayReleaseAll m base).players j) = seat (m.players j) := by
  unfold Dock.bayReleaseAll
  induction List.finRange numBays generalizing m with
  | nil => rfl
  | cons i is ih => rw [List.foldl_cons, ih, seat_bayReleaseOne]

theorem seat_leaveBase (m : Memory) (me j : Slot) : seat ((leaveBase m me).players j) = seat (m.players j) := by
  unfold leaveBase
  split
  · have h1 := seat_modifyPlayer (Dock.bayReleaseAll (m.modifyPlayer me fun p => { p with kills := 0 }) me) me j
      (f := fun p => p.setFlags pfDockOk) fun _ => rfl
    rw [h1, seat_bayReleaseAll]
    refine seat_modifyPlayer _ _ _ ?_
    intro p
    rfl
  · rfl

theorem seat_newShip (c : Setup) (type : ShipType) (p : Player) :
    seat (newShip c type p) = (p.status, p.team, type, p.wQueue) := by
  unfold newShip
  dsimp only
  by_cases h : type = .starbase
  · rw [if_pos h]; rfl
  · rw [if_neg h]; rfl

/-- A refit changes the ship of one player. -/
theorem seat_refit (s : Server) (me j : Slot) (type : ShipType) :
    seat ((refit s me type).player j) =
      if j = me then ((s.player j).status, (s.player j).team, type, (s.player j).wQueue) else seat (s.player j) := by
  have hl := seat_leaveBase s.mem me j
  unfold refit Server.player Memory.modifyPlayer
  simp only [Function.update_apply]
  split
  · rename_i h
    subst h
    rw [seat_newShip]
    unfold seat at hl
    simp only [Prod.mk.injEq] at hl
    rw [hl.1, hl.2.1, hl.2.2.2]
  · exact hl

theorem seat_permitDocking (s : Server) (team : Word) (j : Slot) :
    seat ((permitDocking s team).player j) = seat (s.player j) := by
  unfold permitDocking Server.player
  dsimp only
  split <;> rfl

theorem seat_switch (e : Entry) (p : Player) : seat (e.switch p) = seat p := by
  unfold Entry.switch Player.declareWar
  split
  · split
    · split
      · rfl
      · dsimp only
        split <;> rfl
    · rfl
  · rfl

/-- `enter` puts the player on its team in the ship it asked for. -/
theorem seat_entryPlayer (e : Entry) (c : Setup) (m : Memory) (pno : Slot) (p : Player)
    (hs : ∀ t, (c.shipvals t).type = t) :
    seat (e.player c m pno p) = (p.status, e.team, e.sType, p.wQueue) := by
  have hship : (e.ship c).type = e.sType := by
    unfold Entry.ship
    dsimp only
    split <;> exact hs _
  unfold Entry.player
  dsimp only
  split <;> exact congrArg (fun t => (p.status, e.team, t, p.wQueue)) hship

/-- Entering gives the player the team and the ship of the entry. -/
theorem seat_enter (s : Server) (i j : Slot) (e : Entry) (hs : ∀ t, (s.setup.shipvals t).type = t) :
    seat ((enter s i e).player j) =
      if j = i then ((s.player j).status, e.team, e.sType, (s.player j).wQueue) else seat (s.player j) := by
  have hp : ∀ j, seat ((if e.sType = .starbase then permitDocking s (s.player i).team else s).player j) =
      seat (s.player j) := by
    intro j
    split
    · exact seat_permitDocking s _ j
    · rfl
  have hc : (if e.sType = .starbase then permitDocking s (s.player i).team else s).setup = s.setup := by
    split <;> rfl
  unfold enter
  dsimp only
  rw [Server.player_modifyPlayer]
  split
  · rename_i h
    subst h
    have := hp j
    unfold seat at this
    simp only [Prod.mk.injEq] at this
    rw [seat_switch, seat_entryPlayer _ _ _ _ _ (by rw [hc]; exact hs), this.1, this.2.2.2]
  · exact hp j

/-! ## Steps -/

section

variable {y y' : Yard}

/-- A step that moves nobody in or out of play, and changes no claim. -/
theorem Ordered.keep (h : Ordered y) (hm : y'.mode guChaos = y.mode guChaos)
    (hc : y'.server.setup = y.server.setup) (hp : ∀ i, seat (y'.player i) = seat (y.player i))
    (hs : ∀ i, y'.stage i = y.stage i) (hi : y'.indie = y.indie) : Ordered y' where
  calm := by rw [hm]; exact h.calm
  ships := by rw [hc]; exact h.ships
  aboard i hpal := by
    rw [hs i]
    refine h.aboard i ?_
    have := congrArg Prod.fst (hp i)
    exact this.symm.trans hpal
  claims := by
    have : claim y' = claim y := funext fun i => claim_congr (hp i) (hs i) (by rw [hi])
    rw [this]
    exact h.claims

/-- A step of one player. -/
theorem Ordered.one (h : Ordered y) (i : Slot) (hm : y'.mode guChaos = y.mode guChaos)
    (hc : y'.server.setup = y.server.setup) (ha : (y'.player i).status = .palive → y'.stage i = .playing)
    (hp : ∀ j, j ≠ i → seat (y'.player j) = seat (y.player j)) (hs : ∀ j, j ≠ i → y'.stage j = y.stage j)
    (hi : ∀ j, j ≠ i → y'.indie j = y.indie j)
    (hk : ∀ k, claim y' i = some k → claim y i = some k ∨ ∀ j, j ≠ i → claim y j ≠ some k) : Ordered y' where
  calm := by rw [hm]; exact h.calm
  ships := by rw [hc]; exact h.ships
  aboard j hpal := by
    by_cases hj : j = i
    · subst hj; exact ha hpal
    · rw [hs j hj]
      refine h.aboard j ?_
      have := congrArg Prod.fst (hp j hj)
      exact this.symm.trans hpal
  claims := by
    refine h.claims.change (i := i) (fun k hki j hne hj => ?_) fun j hj => claim_congr (hp j hj) (hs j hj) (hi j hj)
    rcases hk k hki with hi | hfree
    · exact hne (h.claims hj hi)
    · exact hfree j hne hj

end

/-- Nobody else claims a team for which a starbase is granted. -/
theorem free_of_taken {o : Options} {y : Yard} {i : Slot} {team : Word} (h : Ordered y)
    (ht : baseTaken o y i team = .ok ()) (hw : ∀ j, j ≠ i → onTheWay y j ≠ some team) :
    ∀ j, j ≠ i → claim y j ≠ some team := by
  intro j hj hc
  rcases claim_some hc with hb | hw'
  · rw [baseTaken_ok h.calm ht j hj] at hb
    cases hb
  · exact hw j hj hw'

theorem setup_enter (s : Server) (i : Slot) (e : Entry) : (enter s i e).setup = s.setup := by
  unfold enter
  split <;> rfl

theorem status_enter (s : Server) (i : Slot) (e : Entry) : (enter s i e).mem.status = s.mem.status := by
  unfold enter
  split <;> rfl

theorem setup_refit (s : Server) (me : Slot) (type : ShipType) : (refit s me type).setup = s.setup := rfl

theorem status_bayReleaseAll (m : Memory) (base : Slot) : (Dock.bayReleaseAll m base).status = m.status := by
  unfold Dock.bayReleaseAll
  induction List.finRange numBays generalizing m with
  | nil => rfl
  | cons i is ih =>
    rw [List.foldl_cons, ih]
    unfold Dock.bayReleaseOne
    split <;> rfl

theorem status_refit (s : Server) (me : Slot) (type : ShipType) : (refit s me type).mem.status = s.mem.status := by
  unfold refit leaveBase
  split
  · exact status_bayReleaseAll _ _
  · rfl

theorem claim_eq_onTheWay {y : Yard} {i : Slot} (hp : (y.player i).status ≠ .palive) : claim y i = onTheWay y i := by
  unfold claim isBase
  simp [hp]

/-- The process that enters is given the team it was accepted for. -/
theorem entryOf_team (y : Yard) (i : Slot) (tno : Nat) (sType : ShipType) (e : Entry) :
    (entryOf y i tno sType e).team = entryTeam y i tno := by
  unfold entryOf Entry.team entryTeam
  cases y.indie i <;> simp

theorem onTheWay_accepted {y : Yard} {i : Slot} {tno : Nat} {sType : ShipType} (h : y.stage i = .accepted tno sType) :
    onTheWay y i = if sType = .starbase then some (entryTeam y i tno) else none := by
  unfold onTheWay
  rw [h]
  cases sType <;> rfl

theorem onTheWay_installed {y : Yard} {i : Slot} (h : y.stage i = .installed) :
    onTheWay y i = if (y.player i).ship.type = .starbase then some (y.player i).team else none := by
  unfold onTheWay
  rw [h]

theorem onTheWay_playing {y : Yard} {i : Slot} (h : y.stage i = .playing) : onTheWay y i = none := by
  unfold onTheWay
  rw [h]

section

variable {o : Options} {y : Yard}

/-- A process that leaves the game, or is yet to ask for a ship, gives up its claim. -/
theorem Ordered.out {y' : Yard} (h : Ordered y) (i : Slot) (hm : y'.mode guChaos = y.mode guChaos)
    (hc : y'.server.setup = y.server.setup) (hp : ∀ j, j ≠ i → seat (y'.player j) = seat (y.player j))
    (hs : ∀ j, j ≠ i → y'.stage j = y.stage j) (hi : ∀ j, j ≠ i → y'.indie j = y.indie j)
    (hn : (y'.player i).status ≠ .palive) (hw : onTheWay y' i = none) : Ordered y' := by
  refine h.one i hm hc (fun hpal => absurd hpal hn) hp hs hi fun k hk => ?_
  rw [claim_none hn hw] at hk
  cases hk

theorem seat_others (y : Yard) (i : Slot) (f : Player → Player) {j : Slot} (hj : j ≠ i) :
    seat ((y.modifyPlayer i f).player j) = seat (y.player j) := by
  rw [Yard.player_modifyPlayer, if_neg hj]

theorem stage_others (y : Yard) (i : Slot) (stage : Stage) {j : Slot} (hj : j ≠ i) :
    (y.setStage i stage).stage j = y.stage j := by
  rw [Yard.stage_setStage, if_neg hj]

theorem ordered_join (h : Ordered y) (i : Slot) (wQueue : Nat) (indie : Bool) :
    Ordered (step o y (.join i wQueue indie)) := by
  unfold step
  dsimp only
  split
  · refine h.out i rfl rfl (fun j hj => seat_others _ i _ hj) (fun j hj => stage_others _ i _ hj) (fun j hj => ?_) ?_ ?_
    · exact Function.update_of_ne hj _ _
    · simp [login]
    · simp [onTheWay]
  · exact h

/-- Having been accepted, the player claims the team it enters with. -/
theorem ordered_accept (h : Ordered y) {i : Slot} {switching : Int} (hs : y.stage i = .outfit switching) {tno : Nat}
    {sType : ShipType} (htno : tno ≤ 3) (ht : sType = .starbase → baseTaken o y i (1 <<< tno) = .ok ())
    (hok : sType = .starbase → unclaimed y i (entryTeam y i tno)) : Ordered (y.setStage i (.accepted tno sType)) := by
  have hn : (y.player i).status ≠ .palive := by
    intro hp
    rw [h.aboard i hp] at hs
    cases hs
  refine h.one i rfl rfl (fun hp => absurd hp hn) (fun _ _ => rfl) (fun j hj => stage_others y i _ hj) (fun _ _ => rfl)
    fun k hk => .inr ?_
  have hst : (y.setStage i (.accepted tno sType)).stage i = .accepted tno sType := by simp
  have hn' : ((y.setStage i (.accepted tno sType)).player i).status ≠ .palive := hn
  rw [claim_eq_onTheWay hn', onTheWay_accepted hst] at hk
  split at hk
  · rename_i hb
    rw [Option.some.injEq] at hk
    subst hk
    have hu := hok hb
    show ∀ j, j ≠ i → claim y j ≠ some (entryTeam y i tno)
    by_cases hi : independent y i = true
    · intro j hj hc
      rcases claim_some hc with hbase | hw
      · rw [(hu j hj).2 hi] at hbase
        cases hbase
      · exact (hu j hj).1 hw
    · have hteam : entryTeam y i tno = 1 <<< tno := by
        unfold independent at hi
        simp only [Bool.or_eq_true, beq_iff_eq, not_or] at hi
        unfold entryTeam
        rw [if_neg]
        rintro (hx | hx | hx | hx)
        · exact hi.1 hx
        · omega
        · omega
        · exact hi.2 hx
      rw [hteam] at hu ⊢
      exact free_of_taken h (ht hb) fun j hj => (hu j hj).1
  · cases hk

/-- A request that is accepted claims a base that nobody else claims. -/
theorem ordered_request (h : Ordered y) (i : Slot) (mask : Word) (offense : ℚ) (teamPick shipPick : Int)
    (hok : ok o y (.request i mask offense teamPick shipPick)) :
    Ordered (step o y (.request i mask offense teamPick shipPick)) := by
  unfold step
  dsimp only
  split
  · rename_i switching hs
    dsimp only [ok] at hok
    rw [hs] at hok
    dsimp only at hok
    split
    · rename_i tno sType hg
      rw [hg] at hok
      obtain ⟨htno, ht⟩ := getEntry_ok hg
      refine ordered_accept h hs htno ht ?_
      rintro rfl
      exact hok
    · split
      · refine h.out i rfl rfl (fun _ _ => rfl) (fun j hj => stage_others y i _ hj) (fun _ _ => rfl) (fun hp => ?_) ?_
        · rw [h.aboard i hp] at hs
          cases hs
        · simp [onTheWay]
      · exact h
  · exact h

/-- `enter` puts the player on the team, in the ship, that it claims. -/
theorem claim_install {y' : Yard} {i : Slot} {tno : Nat} {sType : ShipType} (hn : (y.player i).status ≠ .palive)
    (hs : y.stage i = .accepted tno sType) (hs' : y'.stage i = .installed)
    (hp : seat (y'.player i) = ((y.player i).status, entryTeam y i tno, sType, (y.player i).wQueue)) :
    claim y' i = claim y i := by
  unfold seat at hp
  simp only [Prod.mk.injEq] at hp
  have hn' : (y'.player i).status ≠ .palive := by
    rw [hp.1]
    exact hn
  rw [claim_eq_onTheWay hn, claim_eq_onTheWay hn', onTheWay_accepted hs, onTheWay_installed hs', hp.2.1, hp.2.2.1]

/-- Being alive, the player flies what it was installed in. -/
theorem claim_goAlive {y' : Yard} {i : Slot} (status : PStatus) (hn : (y.player i).status ≠ .palive)
    (hs : y.stage i = .installed) (hs' : y'.stage i = .playing)
    (hp : seat (y'.player i) = (status, (y.player i).team, (y.player i).ship.type, (y.player i).wQueue))
    {k : Word} (hk : claim y' i = some k) : claim y i = some k := by
  unfold seat at hp
  simp only [Prod.mk.injEq] at hp
  rcases claim_some hk with hb | hw
  · unfold isBase at hb
    simp only [Bool.and_eq_true, beq_iff_eq] at hb
    rw [claim_eq_onTheWay hn, onTheWay_installed hs, if_pos (by rw [← hp.2.2.1]; exact hb.2), ← hp.2.1, hb.1.2]
  · rw [onTheWay_playing hs'] at hw
    cases hw

/-- A refit claims the player's own team, if it is one to a starbase. -/
theorem claim_refit {y' : Yard} {i : Slot} {new : ShipType} {k : Word} (hk : claim y' i = some k)
    (hs' : y'.stage i = .playing)
    (hp : seat (y'.player i) = ((y.player i).status, (y.player i).team, new, (y.player i).wQueue)) : new = .starbase ∧ k = (y.player i).team := by
  unfold seat at hp
  simp only [Prod.mk.injEq] at hp
  rcases claim_some hk with hb | hw
  · unfold isBase at hb
    simp only [Bool.and_eq_true, beq_iff_eq] at hb
    exact ⟨by rw [← hp.2.2.1]; exact hb.2, by rw [← hp.2.1]; exact hb.1.2.symm⟩
  · rw [onTheWay_playing hs'] at hw
    cases hw

/-- What was accepted is installed, and goes on being claimed. -/
theorem ordered_install (h : Ordered y) (i : Slot) (e : Entry) : Ordered (step o y (.install i e)) := by
  unfold step
  dsimp only
  split
  · rename_i tno sType hs
    have hn : (y.player i).status ≠ .palive := by
      intro hp
      rw [h.aboard i hp] at hs
      cases hs
    have hseat : ∀ j, seat ((enter y.server i (entryOf y i tno sType e)).player j) =
        if j = i then ((y.player j).status, (entryOf y i tno sType e).team, sType, (y.player j).wQueue)
        else seat (y.player j) := fun j => seat_enter y.server i j _ h.ships
    have hi := hseat i
    rw [if_pos rfl, entryOf_team] at hi
    refine h.one i ?_ (setup_enter _ _ _) (fun hp => absurd hp ?_) (fun j hj => ?_)
      (fun j hj => stage_others _ i _ hj) (fun _ _ => rfl) fun k hk => .inl ?_
    · exact congrArg (fun st => st.gameup.has guChaos) (status_enter _ _ _)
    · have := congrArg Prod.fst hi
      exact fun hp => hn (this.symm.trans hp)
    · have := hseat j
      rw [if_neg hj] at this
      exact this
    · rw [← hk]
      exact Eq.symm (claim_install hn hs (by simp) hi)
  · exact h

/-- From now on the ship in play is what is claimed. -/
theorem ordered_goAlive (h : Ordered y) (i : Slot) (observer : Bool) : Ordered (step o y (.goAlive i observer)) := by
  unfold step
  dsimp only
  split
  · rename_i hs
    have hn : (y.player i).status ≠ .palive := by
      intro hp
      rw [h.aboard i hp] at hs
      cases hs
    refine h.one i rfl rfl (fun _ => by simp) (fun j hj => seat_others _ i _ hj) (fun j hj => stage_others _ i _ hj)
      (fun _ _ => rfl) fun k hk =>
        .inl (claim_goAlive (if observer then .pobserv else .palive) hn hs (by simp) ?_ hk)
    rw [Yard.player_setStage, Yard.player_modifyPlayer, if_pos rfl]
    rfl
  · exact h

/-- A refit to a base claims it, if nobody else does. -/
theorem ordered_refit (h : Ordered y) (i : Slot) (type : Int) (offense : ℚ) (hok : ok o y (.refit i type offense)) :
    Ordered (step o y (.refit i type offense)) := by
  unfold step
  dsimp only
  split
  · rename_i hs
    unfold doRefit
    dsimp only [ok] at hok
    split
    · exact h
    · split
      · exact h
      · rename_i new hm
        rw [hm] at hok
        have hseat : ∀ j, seat ((refit y.server i new).player j) =
            if j = i then ((y.player j).status, (y.player j).team, new, (y.player j).wQueue) else seat (y.player j) :=
          fun j => seat_refit y.server i j new
        have hi := hseat i
        rw [if_pos rfl] at hi
        refine h.one i ?_ (setup_refit _ _ _) (fun _ => hs) (fun j hj => ?_) (fun _ _ => rfl) (fun _ _ => rfl)
          fun k hk => .inr ?_
        · exact congrArg (fun st => st.gameup.has guChaos) (status_refit _ _ _)
        · have := hseat j
          rw [if_neg hj] at this
          exact this
        · obtain ⟨rfl, rfl⟩ := claim_refit hk hs hi
          exact free_of_taken h (mayRefit_ok hm) hok
  · exact h

/-- A player that is in play plays, so a change of the status of one that plays leaves no claim on the way. -/
theorem ordered_die (h : Ordered y) (i : Slot) : Ordered (step o y (.die i)) := by
  unfold step
  dsimp only
  split
  · rename_i hp
    refine h.out i rfl rfl (fun j hj => seat_others _ i _ hj) (fun _ _ => rfl) (fun _ _ => rfl) (by simp) ?_
    exact onTheWay_playing (h.aboard i hp)
  · exact h

/-- A ship that has exploded claims nothing. -/
theorem ordered_exploded (h : Ordered y) (i : Slot) : Ordered (step o y (.exploded i)) := by
  unfold step
  dsimp only
  split
  · rename_i hp
    have hn : (y.player i).status ≠ .palive := by simp [hp]
    refine h.one i rfl rfl (fun hpal => ?_) (fun j hj => seat_others _ i _ hj) (fun _ _ => rfl) (fun _ _ => rfl)
      fun k hk => .inl ?_
    · simp at hpal
    · rw [claim_eq_onTheWay (by simp)] at hk
      rw [claim_eq_onTheWay hn, ← hk]
      unfold onTheWay entryTeam
      simp only [Yard.player_modifyPlayer, if_pos, Yard.stage_modifyPlayer]
      rfl
  · exact h

theorem ordered_death (h : Ordered y) (i : Slot) : Ordered (step o y (.death i)) := by
  unfold step
  dsimp only
  split
  · refine h.out i rfl rfl (fun j hj => seat_others _ i _ hj) (fun j hj => stage_others _ i _ hj) (fun _ _ => rfl) ?_ ?_
    · simp
    · simp [onTheWay]
  · exact h

theorem ordered_quit (h : Ordered y) (i : Slot) : Ordered (step o y (.quit i)) := by
  refine h.out i rfl rfl (fun j hj => seat_others _ i _ hj) (fun j hj => stage_others _ i _ hj) (fun _ _ => rfl) ?_ ?_
  · simp [step]
  · simp [step, onTheWay]

/-- Every allowed step keeps the claims exclusive. -/
theorem ordered_step (a : Step) (hl : lawful y a) (hok : ok o y a) (h : Ordered y) : Ordered (step o y a) := by
  cases a with
  | join i wQueue indie => exact ordered_join h i wQueue indie
  | request i mask offense teamPick shipPick => exact ordered_request h i mask offense teamPick shipPick hok
  | install i e => exact ordered_install h i e
  | goAlive i observer => exact ordered_goAlive h i observer
  | refit i type offense => exact ordered_refit h i type offense hok
  | die i => exact ordered_die h i
  | exploded i => exact ordered_exploded h i
  | death i => exact ordered_death h i
  | quit i => exact ordered_quit h i
  | play m teTurns => exact h.keep (hl.1.trans h.calm.symm) rfl hl.2 (fun _ => rfl) rfl

end

theorem Start.ordered {y : Yard} (h : Start y) : Ordered y where
  calm := h.calm
  ships := h.ships
  aboard i hp := by
    rw [h.free i] at hp
    cases hp
  claims i j k hi _ := by
    have hn : (y.player i).status ≠ .palive := by simp [h.free i]
    have hw : onTheWay y i = none := by
      unfold onTheWay
      rw [h.away i]
    rw [claim_none hn hw] at hi
    cases hi

/-! ## At most one -/

/-- With chaos off, as long as nobody is granted a starbase while another one of the team is on its way into the
game, no team ever has two starbases in play. -/
theorem one_starbase (o : Options) {y y' : Yard} {ops : List Step} (hs : Start y)
    (hr : Run (fun y a => lawful y a ∧ ok o y a) (step o) y ops y') (i j : Slot) (team : Word)
    (hi : isBase (y'.player i) team = true) (hj : isBase (y'.player j) team = true) : i = j := by
  have h : Ordered y' := hr.inv (I := Ordered) (fun y a hok h => ordered_step a hok.1 hok.2 h) hs.ordered
  have hclaim : ∀ i, isBase (y'.player i) team = true → claim y' i = some team := by
    intro i hb
    have ht : (y'.player i).team = team := by
      unfold isBase at hb
      simp only [Bool.and_eq_true, beq_iff_eq] at hb
      exact hb.1.2
    unfold claim
    rw [ht, if_pos hb]
  exact h.claims (hclaim i hi) (hclaim j hj)

/-! ## Two requests -/

instance (y : Yard) (i : Slot) (team : Word) : Decidable (unclaimed y i team) :=
  inferInstanceAs (Decidable (∀ j, j ≠ i →
    onTheWay y j ≠ some team ∧ (independent y i = true → isBase (y.player j) team = false)))

instance (y : Yard) : (a : Step) → Decidable (lawful y a)
  | .play m _ => inferInstanceAs
      (Decidable (m.status.gameup.has guChaos = false ∧ ∀ i, seat (m.players i) = seat (y.player i)))
  | .join .. | .request .. | .install .. | .goAlive .. | .refit .. | .die .. | .exploded .. | .death .. | .quit .. =>
    isTrue trivial

instance (o : Options) (y : Yard) (a : Step) : Decidable (ok o y a) := by
  unfold ok
  split <;> try infer_instance
  all_goals (split <;> try infer_instance)
  all_goals (split <;> infer_instance)

/-- Every ship is to be had without a rank; a starbase needs five planets. -/
def freely : Options where
  shipsallowed := fun _ => true
  ddrank := 0
  garank := 0
  sbrank := 0
  asMinimalOffense := 0
  bbMinimalOffense := 0
  ddMinimalOffense := 0
  scMinimalOffense := 0
  sbMinimalOffense := 0
  sbplanets := 5
  maxChaosBases := 2
  lameRefit := true
  lameBaseRefit := true

/-- A server whose planets are all of the first team. -/
def fresh : Yard :=
  let server : Server := default
  { (default : Yard) with
    server := { server with
      setup := { server.setup with shipvals := fun t => { (default : Ship) with type := t } }
      mem := { server.mem with planets := fun _ => { (default : Planet) with owner := fed } } } }

/-- An entry at the place where it is tried. -/
def anyEntry : Entry := ⟨0, .cruiser, "", 0, 0, 0, false, false, none⟩

/-- A player of the first team asks for a ship. -/
def ask (i : Slot) (shipPick : Int) : Step := .request i allTeam 0 0 shipPick

def enterGame (i : Slot) (shipPick : Int) : List Step := [ask i shipPick, .install i anyEntry, .goAlive i false]

def leaveGame (i : Slot) : List Step := [.die i, .exploded i, .death i]

/-- Three players of a team, two of them back in `getEntry`. -/
def assembled : List Step :=
  [.join 0 0 false, .join 1 0 false, .join 2 0 false] ++ enterGame 0 2 ++ enterGame 1 2 ++ enterGame 2 2 ++
    leaveGame 0 ++ leaveGame 1

/-- Two requests for a starbase, both accepted before either ship is in play. -/
def overlapping : List Step :=
  assembled ++ [ask 0 5, ask 1 5, .install 0 anyEntry, .install 1 anyEntry, .goAlive 0 false, .goAlive 1 false]

theorem fresh_start : Start fresh where
  calm := by decide +kernel
  ships _ := rfl
  free _ := rfl
  away _ := rfl

/-- Two players who ask for a starbase one after the other: the second is refused. -/
def oneAfterTheOther : List Step := assembled ++ enterGame 0 5 ++ enterGame 1 5

/-- The team has one starbase, though two of its players asked for one. -/
theorem one_starbase_refused :
    isBase ((oneAfterTheOther.foldl (step freely) fresh).player 0) fed = true ∧
      ∀ j, isBase ((oneAfterTheOther.foldl (step freely) fresh).player j) fed = true → 0 = j := by
  have h0 : isBase ((oneAfterTheOther.foldl (step freely) fresh).player 0) fed = true := by decide +kernel
  have hr : Run (fun y a => lawful y a ∧ ok freely y a) (step freely) fresh oneAfterTheOther
      (oneAfterTheOther.foldl (step freely) fresh) := Run.of_allowedAll fresh oneAfterTheOther (by decide +kernel)
  exact ⟨h0, fun j hj => one_starbase freely fresh_start hr 0 j fed h0 hj⟩

/-- Two requests that are accepted before either ship is in play give the team two starbases. -/
theorem two_starbases : ¬ ∀ (o : Options) (y y' : Yard) (ops : List Step), Start y →
    Run (fun y a => lawful y a) (step o) y ops y' →
      ∀ (i j : Slot) (team : Word), isBase (y'.player i) team = true → isBase (y'.player j) team = true → i = j := by
  intro h
  have hr : Run (fun y a => lawful y a) (step freely) fresh overlapping (overlapping.foldl (step freely) fresh) :=
    Run.of_allowedAll fresh overlapping (by decide +kernel)
  have h01 := h freely fresh _ overlapping fresh_start hr 0 1 fed (by decide +kernel) (by decide +kernel)
  exact absurd h01 (by decide)

end Netrek.Outfit
