/-
The masks of a ship: whom its weapons hurt (`p_hostile`), whom it has been at war with (`p_swar`), and both
(`p_war`); and `declare_war` of `ntserv/interface.c`, by which a client asks to change them.
-/
import NetrekServer.Daemon.Damage
import NetrekServer.Dock.Bay
import NetrekServer.Empire.Teams

namespace Netrek.War

open Daemon Empire

/-! ## Declaring war -/

/-- A docked ship of a team in the mask is released from the bay. -/
def releaseHostile (mask : Word) (me : Slot) (s : Server) (i : Fin numBays) : Server :=
  match (s.player me).bays i with
  | none => s
  | some ship => if mask.has (s.player ship).team then { s with mem := Dock.bayRelease s.mem ship } else s

/-- `declare_war`. The messages to the teams and the delay, which the process keeps, are left out. -/
def declareWar (s : Server) (me : Slot) (mask : Word) (refitdelay : Bool) : Server :=
  let p := s.player me
  if !p.flags.has pfRobot && p.team == nobody then
    s.modifyPlayer me fun p => { p with war := nobody, hostile := nobody, swar := nobody }
  else
    let mask := mask &&& allTeam &&& ~~~p.team ||| p.swar
    if mask ^^^ p.hostile = 0 then s
    else
      let s := if p.flags.has pfDock && mask.has (s.player p.dockWith).team then { s with mem := Dock.bayRelease s.mem me }
        else s
      let s := if p.ship.type = .starbase then (List.finRange numBays).foldl (releaseHostile mask me) s else s
      let s := if refitdelay && mask.has (~~~p.hostile) then
          (s.modifyPlayer me fun p => p.setFlags pfWar).warn me "Pausing ten seconds to re-program battle computers."
        else s
      s.modifyPlayer me fun p => { p with hostile := mask, war := p.swar ||| mask }

/-! ## Masks in order -/

/-- The teams at war with are the hostile ones and those of the past, which are hostile too; one's own is in no mask. -/
structure Masked (p : Player) : Prop where
  war : p.war = p.hostile ||| p.swar
  sticky : p.swar &&& ~~~p.hostile = 0
  own : p.hostile &&& p.team = 0 ∧ p.swar &&& p.team = 0 ∧ p.war &&& p.team = 0

/-- Every live player and every planet is of one of the teams, or of none. A newcomer, who has no ship yet, is of all of
them. -/
structure Lawful (s : Server) : Prop where
  team : ∀ j, (s.player j).status = .palive → (s.player j).team ∈ nobody :: fourTeams
  owner : ∀ l, (s.planet l).owner ∈ nobody :: fourTeams
  home : ∀ l, (s.planet l).flags &&& allTeam ∈ nobody :: fourTeams

/-! ## Bits -/

variable {a b t w : Word}

theorem sub_iff : a &&& ~~~b = 0 ↔ ∀ k, a.getLsbD k = true → b.getLsbD k = true := by
  constructor
  · intro h k hk
    have hk32 : k < 32 := BitVec.lt_of_getLsbD hk
    have hbit := congrArg (BitVec.getLsbD · k) h
    simpa [hk, hk32] using hbit
  · intro h
    apply BitVec.eq_of_getLsbD_eq
    intro k hk
    cases ha : a.getLsbD k with
    | false => simp [ha]
    | true => simp [h k ha]

theorem disjoint_iff : a &&& b = 0 ↔ ∀ k, a.getLsbD k = true → b.getLsbD k = false := by
  constructor
  · intro h k hk
    have hbit := congrArg (BitVec.getLsbD · k) h
    simpa [hk] using hbit
  · intro h
    apply BitVec.eq_of_getLsbD_eq
    intro k hk
    cases ha : a.getLsbD k with
    | false => simp [ha]
    | true => simp [h k ha]

/-- A team that meets a mask is within it. -/
theorem sub_of_has (ht : t ∈ nobody :: fourTeams) (h : w.has t = true) : t &&& ~~~w = 0 := by
  have hone (k : Nat) (hk : w.has (BitVec.twoPow 32 k) = true) : BitVec.twoPow 32 k &&& ~~~w = 0 := by
    rw [sub_iff]
    intro i hi
    rw [BitVec.getLsbD_twoPow] at hi
    simp only [Bool.and_eq_true, decide_eq_true_eq] at hi
    rw [← hi.2]
    unfold Word.has at hk
    rw [BitVec.and_twoPow] at hk
    by_contra hc
    rw [if_neg hc] at hk
    exact absurd hk (by decide)
  unfold fourTeams at ht
  simp only [List.mem_cons, List.not_mem_nil, or_false] at ht
  rcases ht with rfl | rfl | rfl | rfl | rfl
  · exact absurd h (by unfold Word.has nobody; simp)
  · exact hone 0 h
  · exact hone 1 h
  · exact hone 2 h
  · exact hone 3 h

/-- The masks are in order if they are so team by team. -/
theorem Masked.of_bits {p : Player} (hwar : p.war = p.hostile ||| p.swar)
    (hsub : ∀ k, p.swar.getLsbD k = true → p.hostile.getLsbD k = true)
    (hown : ∀ k, p.hostile.getLsbD k = true → p.team.getLsbD k = false) : Masked p := by
  refine ⟨hwar, sub_iff.2 hsub, disjoint_iff.2 hown, disjoint_iff.2 fun k hk => hown k (hsub k hk), disjoint_iff.2 ?_⟩
  intro k hk
  rw [hwar, BitVec.getLsbD_or, Bool.or_eq_true] at hk
  exact hk.elim (hown k) fun hs => hown k (hsub k hs)

theorem Masked.sub {p : Player} (h : Masked p) (k : Nat) : p.swar.getLsbD k = true → p.hostile.getLsbD k = true :=
  sub_iff.1 h.sticky k

theorem Masked.disjoint {p : Player} (h : Masked p) (k : Nat) : p.hostile.getLsbD k = true → p.team.getLsbD k = false :=
  disjoint_iff.1 h.own.1 k

/-- One is at war with the hostile teams. -/
theorem Masked.war_eq {p : Player} (h : Masked p) : p.war = p.hostile := by
  rw [h.war]
  apply BitVec.eq_of_getLsbD_eq
  intro k _
  rw [BitVec.getLsbD_or]
  cases hs : p.swar.getLsbD k with
  | false => simp
  | true => simp [h.sub k hs]

/-- A war that goes on becomes one of the past. -/
theorem Masked.startWar {p : Player} (h : Masked p) (ht : t &&& ~~~p.hostile = 0) {swar : Word} (hs : swar = p.swar ||| t) :
    p.war = p.hostile ||| swar ∧ ∀ k, swar.getLsbD k = true → p.hostile.getLsbD k = true := by
  have hsub : ∀ k, swar.getLsbD k = true → p.hostile.getLsbD k = true := by
    intro k hk
    rw [hs, BitVec.getLsbD_or, Bool.or_eq_true] at hk
    exact hk.elim (h.sub k) (sub_iff.1 ht k)
  refine ⟨?_, hsub⟩
  rw [h.war_eq]
  apply BitVec.eq_of_getLsbD_eq
  intro k _
  rw [BitVec.getLsbD_or]
  cases hk : swar.getLsbD k with
  | false => simp
  | true => simp [hsub k hk]

end Netrek.War
