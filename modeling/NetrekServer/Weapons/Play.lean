/-
Plays of any length: the weapons of all players, the daemon's work on torps, entries, changes of teams,
the parade, and whatever else leaves torps and their counters alone. In a play whose steps pass over
nothing that flies, every counter is right in every state, and a torp is fired into a free slot of its
own player.
-/
import NetrekServer.Lib.Run
import NetrekServer.Weapons.Runs

namespace Netrek.Weapons

open Daemon Lib

/-! ## Steps -/

inductive Step
  | ntorp (me : Slot) (course : UInt8) (attributes : Word)
  | nplasmatorp (me : Slot) (course : UInt8) (attributes : Word)
  | phaser (me : Slot) (course : UInt8)
  | detothers (me : Slot)
  | handleDetMReq (me : Slot) (tnum : UInt16) (sendShort : Bool)
  | udtorps
  /-- A ship sets out again after its death, or a player enters from outside the game. -/
  | reenter (pno : Slot) (e : Entry)
  | enter (pno : Slot) (e : Entry)
  | changeTeam (k : Slot) (ours theirs : Word)
  | conquerUpdate (galaxy : Fin maxPlanets → Planet) (home : Slot → Int × Int)
  /-- Ships die, move and change in any other way. -/
  | others (s' : Server)

/-- Anything changes but the torps and their counters. -/
def others (s s' : Server) : Server :=
  { s' with mem := { s'.mem with
      torps := s.mem.torps
      players := fun o => { s'.player o with ntorp := (s.player o).ntorp, nplasmatorp := (s.player o).nplasmatorp } } }

def step (s : Server) : Step → Server
  | .ntorp me course attributes => ntorp s me course attributes
  | .nplasmatorp me course attributes => nplasmatorp s me course attributes
  | .phaser me course => phaser s me course
  | .detothers me => detothers s me
  | .handleDetMReq me tnum sendShort => handleDetMReq s me tnum sendShort
  | .udtorps => udtorps s
  | .reenter pno e => reenter s pno e
  | .enter pno e => setOut s pno e
  | .changeTeam k ours theirs => changeTeam s k ours theirs
  | .conquerUpdate galaxy home => Parade.conquerUpdate galaxy home s
  | .others s' => others s s'

/-- The step passes over nothing that flies. -/
def Step.clean (s : Server) : Step → Prop
  | .enter pno _ => Spent s pno
  | .changeTeam k _ _ => Spent s k
  | .conquerUpdate _ _ => ParadeClean s
  | _ => True

theorem step_kept (s : Server) (a : Step) (hclean : a.clean s) (h : Kept s) : Kept (step s a) := by
  cases a with
  | ntorp me course attributes => exact h.ntorp me course attributes
  | nplasmatorp me course attributes => exact h.nplasmatorp me course attributes
  | phaser me course => exact h.phaser me course
  | detothers me => exact h.congr (pool_detothers s me)
  | handleDetMReq me tnum sendShort => exact h.congr (pool_handleDetMReq s me tnum sendShort)
  | udtorps => exact h.udtorps
  | reenter pno e => exact h.reenter pno e
  | enter pno e => exact h.setOut hclean e
  | changeTeam k ours theirs => exact h.changeTeam hclean ours theirs
  | conquerUpdate galaxy home => exact h.conquerUpdate hclean galaxy home
  | others s' => exact h.congr (pool_congr (fun _ => rfl) fun _ => ⟨rfl, rfl⟩)

/-! ## Plays -/

/-- Nothing flies, and nothing is counted. -/
def Quiet (s : Server) : Prop :=
  (∀ k < numTorps, (s.torp k).status = .tfree) ∧ ∀ o, (s.player o).ntorp = 0 ∧ (s.player o).nplasmatorp = 0

theorem Quiet.kept {s : Server} (h : Quiet s) : Kept s where
  balanced a := by
    have hempty : (pool s).held (Finset.range numTorps) a = ∅ := by
      refine Finset.filter_eq_empty_iff.2 fun k hk ha => ?_
      exact (account_of_some ha).1 (h.1 k (Finset.mem_range.1 hk))
    rw [hempty]
    obtain ⟨ty, o⟩ := a
    cases ty with
    | photon => exact (h.2 o).1
    | plasma => exact (h.2 o).2
  inPlace k hk a ha := absurd (h.1 k hk) (account_of_some ha).1

theorem fireTorp_torp (s : Server) (me : Slot) (course : UInt8) (attributes : Word) {i : Nat}
    (hi : i ≠ searchFree s (firstTorpOf me) maxTorp) : (fireTorp s me course attributes).torp i = s.torp i := by
  unfold fireTorp
  simp only
  rw [Server.torp_record, Server.torp_record, Server.torp_modifyTorp, if_neg hi]
  rfl

/-- `ntorp` writes to a free slot of its player only. -/
theorem ntorp_torp {s : Server} (h : Kept s) {me : Slot} {course : UInt8} {attributes : Word} {i : Nat}
    (hi : (ntorp s me course attributes).torp i ≠ s.torp i) :
    firstTorpOf me ≤ i ∧ i ≤ lastTorpOf me ∧ (s.torp i).status = .tfree := by
  obtain ⟨log, he | ⟨hn, he⟩⟩ := ntorp_cases s me course attributes
  · rw [he] at hi
    exact absurd rfl hi
  · rw [he] at hi
    have hlog : Kept { s with log := log } := h.congr rfl
    have hfound := hlog.search hn
    by_cases hk : i = searchFree { s with log := log } (firstTorpOf me) maxTorp
    · rw [← hk] at hfound
      exact hfound
    · exact absurd (fireTorp_torp _ me course attributes hk) hi

/-- In every state of a play from the start on, the counters of all players are right. A torp is fired
into a slot of its own player that is free. -/
theorem torps_counted {s s' : Server} {steps : List Step} (hs : Quiet s) (h : Run Step.clean step s steps s') :
    TorpsCounted s' ∧
    (∀ me, (s'.player me).ntorp ≠ maxTorp →
      firstTorpOf me ≤ searchFree s' (firstTorpOf me) maxTorp ∧ searchFree s' (firstTorpOf me) maxTorp ≤ lastTorpOf me ∧
        (s'.torp (searchFree s' (firstTorpOf me) maxTorp)).status = .tfree) ∧
    ∀ me course attributes i, (ntorp s' me course attributes).torp i ≠ s'.torp i →
      firstTorpOf me ≤ i ∧ i ≤ lastTorpOf me ∧ (s'.torp i).status = .tfree := by
  have hkept : Kept s' := Run.inv step_kept h hs.kept
  exact ⟨hkept.counted, fun _ hn => hkept.search hn, fun _ _ _ _ hi => ntorp_torp hkept hi⟩

/-- Two cruisers of the Federation, at an update of their processes. -/
def duel (updates : Int) : Server :=
  let ship : Ship := { (default : Ship) with
    type := .cruiser, torpDamage := 40, torpSpeed := 12, torpFuse := 40, torpCost := 280, maxFuel := 10000, maxSpeed := 9 }
  let p : Player := { (default : Player) with
    status := .palive, updates := updates, ship := ship, x := 20000, y := 20000, fuel := 10000, team := fed, war := rom }
  { (default : Server) with
    mem := { (default : Memory) with players := fun i => if i.val < 2 then p else default }
    lastTorpFired := fun _ => -1 }

theorem torps_counted_duel :
    TorpsCounted (udtorps (ntorp (duel 0) 0 0 0)) ∧ torpsInUse (udtorps (ntorp (duel 0) 0 0 0)) 0 = 1 := by
  refine ⟨(@torps_counted (duel 0) _ [.ntorp 0 0 0, .udtorps] ⟨fun _ _ => rfl, ?_⟩
    (.cons trivial (.cons trivial (.nil _)))).1, by decide +kernel⟩
  decide +kernel

/-- A player fires eight torps, and another one. -/
def volley : List Step :=
  (List.range 8).flatMap (fun k => [.others (duel k), .ntorp 0 0 0]) ++ [.ntorp 1 0 0]

/-- Then the first player is put on another team, and fires again. -/
def overrun : List Step := volley ++ [.changeTeam 0 rom fed, .others (duel 9), .ntorp 0 0 0]

/-- After the change of teams a ninth torp of the player flies in a slot of the next player, over a torp of that player. -/
theorem not_counted_changeTeam :
    Quiet (duel 0) ∧ Run (fun _ _ => True) step (duel 0) overrun (overrun.foldl step (duel 0)) ∧
      ¬ TorpsCounted (overrun.foldl step (duel 0)) ∧
      ((overrun.foldl step (duel 0)).player 0).ntorp = 1 ∧ torpsInUse (overrun.foldl step (duel 0)) 0 = 8 ∧
      ((volley.foldl step (duel 0)).torp 8).owner = 1 ∧ ((overrun.foldl step (duel 0)).torp 8).owner = 0 := by
  have hcount : ((overrun.foldl step (duel 0)).player 0).ntorp = 1 := by decide +kernel
  have huse : torpsInUse (overrun.foldl step (duel 0)) 0 = 8 := by decide +kernel
  refine ⟨⟨fun _ _ => rfl, by decide +kernel⟩, .all _ _, fun h => ?_, hcount, huse, by decide +kernel, by decide +kernel⟩
  have hzero := (h 0).1
  omega

end Netrek.Weapons
