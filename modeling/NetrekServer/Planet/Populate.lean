/-
Planets grow armies: `udplanets` of `ntserv/daemon.c` takes one planet a call, in an order that
`RandomizePopOrder` shuffles whenever it has come to an end.
-/
import NetrekServer.Lib.Shuffle
import NetrekServer.Server

namespace Netrek.Planets

open Netrek.Lib

/-! ## Data -/

/-- What the daemon keeps for the growth of planets; `calls` are the arguments of `PopPlanet`, the
last call first. -/
structure Populace where
  server : Server
  maxPop : Int
  planetPlague : Bool
  /-- `pl_poporder`. -/
  popOrder : Vector Int maxPlanets
  /-- The index in `popOrder` of the planet last populated. -/
  lastpop : Int
  calls : List Int

/-! ## One planet -/

/-- The armies of a planet change by `num`. -/
def grow (s : Server) (l : Fin maxPlanets) (num : Int) : Server :=
  s.modifyPlanet l fun p => { p with armies := p.armies + num }

def redraw (s : Server) (l : Fin maxPlanets) : Server := s.modifyPlanet l fun p => { p with flags := p.flags ||| plRedraw }

/-- One more army, and the planet is redrawn if it has more than four. -/
def growOne (s : Server) (l : Fin maxPlanets) : Server :=
  let s := grow s l 1
  if 4 < (s.planet l).armies then redraw s l else s

/-- The plague takes armies of a planet with more than five. -/
def plague (s : Server) (l : Fin maxPlanets) : Server :=
  let armies := (s.planet l).armies
  if 5 < armies then
    let (r, s) := s.draw
    grow s l (-((r % 4500 : Nat) + armies * armies).tdiv 4500)
  else s

/-- Planets with less than four armies grow faster, agricultural ones always. -/
def growSmall (s : Server) (l : Fin maxPlanets) : Server :=
  if (s.planet l).armies < 4 then
    let (r, s) := s.draw
    let s := if r % 20 = 0 then grow s l 1 else s
    if (s.planet l).flags.has plAgri then growOne s l else s
  else s

/-- Chance for extra armies. -/
def growExtra (s : Server) (l : Fin maxPlanets) : Server :=
  let (r, s) := s.draw
  if r % 10 = 0 then
    let s := if (s.planet l).armies < 5 then redraw s l else s
    let (r, s) := s.draw
    grow s l ((r % 3 : Nat) + 1)
  else s

/-- Agricultural worlds have an extra chance. -/
def growAgri (s : Server) (l : Fin maxPlanets) : Server :=
  if (s.planet l).flags.has plAgri then
    let (r, s) := s.draw
    if r % 5 = 0 then growOne s l else s
  else s

/-- `PopPlanet` at a planet there is. -/
def popAt (g : Populace) (l : Fin maxPlanets) : Server :=
  let s := g.server
  let armies := (s.planet l).armies
  if armies = 0 then s
  else if g.maxPop ≤ armies ∧ !s.mem.status.tourn then s
  else
    let s := if g.planetPlague then plague s l else s
    growAgri (growExtra (growSmall s l) l) l

theorem toNat_lt_maxPlanets {i : Int} (h : 0 ≤ i ∧ i < maxPlanets) : i.toNat < maxPlanets := by omega

/-- `PopPlanet`. -/
def popPlanet (g : Populace) (plnum : Int) : Populace :=
  let g := { g with calls := plnum :: g.calls }
  if h : 0 ≤ plnum ∧ plnum < maxPlanets then
    { g with server := popAt g ⟨plnum.toNat, toNat_lt_maxPlanets h⟩ }
  else g

/-! ## The order -/

/-- The numbers of the planets. -/
def planetNumbers : Vector Int maxPlanets := .ofFn fun i => i.val

/-- `RandomizePopOrder`. The table is first filled in if it was never used. -/
def randomizePopOrder (g : Populace) : Populace :=
  let order := if g.popOrder[0] < 0 then planetNumbers else g.popOrder
  let (order, s) := shuffleDown Server.draw (maxPlanets - 1) order g.server
  { g with server := s, popOrder := order, lastpop := maxPlanets - 1 }

/-- The entry of the table that the cursor is at. -/
def Populace.next (g : Populace) : Int := g.popOrder.toList.getD g.lastpop.toNat (-1)

/-- `udplanets`. -/
def udplanets (g : Populace) : Populace :=
  let g := { g with lastpop := g.lastpop - 1 }
  let g := if g.lastpop < 0 then randomizePopOrder g else g
  popPlanet g g.next

/-- The daemon calls `udplanets` in a state of the server that everything else has led to. -/
def turn (g : Populace) (s : Server) : Populace := udplanets { g with server := s }

/-- The variables as the daemon starts. -/
structure Started (g : Populace) : Prop where
  popOrder : g.popOrder = .ofFn fun i => if i.val = 0 then -1 else 0
  lastpop : g.lastpop = 0

/-! ## The cursor -/

/-- The table has each planet number once. -/
def Populace.Shuffled (g : Populace) : Prop := g.popOrder.toList.Perm planetNumbers.toList

/-- The order has come to its end; the table was never used, or it has each planet number once. -/
structure AtEnd (g : Populace) : Prop where
  lastpop : g.lastpop = 0
  popOrder : g.popOrder[0] < 0 ∨ g.Shuffled

theorem Started.atEnd {g : Populace} (h : Started g) : AtEnd g := by
  constructor
  · exact h.lastpop
  · left
    rw [h.popOrder]
    decide

/-- The shuffle leaves a permutation, with the cursor at its end. -/
theorem randomizePopOrder_spec {g : Populace} (h : g.popOrder[0] < 0 ∨ g.Shuffled) :
    (randomizePopOrder g).Shuffled ∧ (randomizePopOrder g).lastpop = maxPlanets - 1 ∧
      (randomizePopOrder g).calls = g.calls := by
  refine ⟨?_, rfl, rfl⟩
  show (shuffleDown Server.draw (maxPlanets - 1) _ g.server).1.toList.Perm _
  apply (shuffleDown_perm ..).trans
  split
  · exact .refl _
  · exact h.resolve_left ‹_›

@[simp] theorem popOrder_popPlanet (g : Populace) (n : Int) : (popPlanet g n).popOrder = g.popOrder := by
  unfold popPlanet
  split <;> rfl

@[simp] theorem lastpop_popPlanet (g : Populace) (n : Int) : (popPlanet g n).lastpop = g.lastpop := by
  unfold popPlanet
  split <;> rfl

@[simp] theorem calls_popPlanet (g : Populace) (n : Int) : (popPlanet g n).calls = n :: g.calls := by
  unfold popPlanet
  split <;> rfl

/-- Before the end, a call takes the entry below. -/
theorem turn_within {g : Populace} {k : Nat} (s : Server) (h : g.lastpop = (k + 1 : Nat)) :
    (turn g s).popOrder = g.popOrder ∧ (turn g s).lastpop = k ∧
      (turn g s).calls = g.popOrder.toList.getD k (-1) :: g.calls := by
  have hk : g.lastpop - 1 = k := by omega
  have hn : ¬ (k : Int) < 0 := by omega
  unfold turn udplanets
  simp only [hk, if_neg hn, popOrder_popPlanet, lastpop_popPlanet, calls_popPlanet]
  exact ⟨trivial, trivial, rfl⟩

/-- At the end, a call shuffles and takes the last entry. -/
theorem turn_atEnd {g : Populace} (s : Server) (h : AtEnd g) :
    (turn g s).Shuffled ∧ (turn g s).lastpop = maxPlanets - 1 ∧
      (turn g s).calls = (turn g s).popOrder.toList.getD (maxPlanets - 1) (-1) :: g.calls := by
  have hk : g.lastpop - 1 < 0 := by have := h.lastpop; omega
  obtain ⟨hp, hl, hc⟩ := randomizePopOrder_spec (g := { g with server := s, lastpop := g.lastpop - 1 }) h.popOrder
  unfold Populace.Shuffled turn udplanets
  simp only [if_pos hk, popOrder_popPlanet, lastpop_popPlanet, calls_popPlanet]
  exact ⟨hp, hl, by rw [hc]; rfl⟩

/-- Turns before the end take entries from the cursor down. -/
theorem turns_within : ∀ (envs : List Server) {g : Populace} {k : Nat}, g.lastpop = (k : Nat) → envs.length ≤ k →
    k ≤ maxPlanets →
    (envs.foldl turn g).popOrder = g.popOrder ∧ (envs.foldl turn g).lastpop = (k - envs.length : Nat) ∧
      (envs.foldl turn g).calls = (g.popOrder.toList.take k).drop (k - envs.length) ++ g.calls
  | [], g, k, h, _, _ => by
    refine ⟨rfl, h, ?_⟩
    have hd : (g.popOrder.toList.take k).drop k = [] := List.drop_eq_nil_of_le (List.length_take_le ..)
    simp [hd]
  | s :: envs, g, 0, _, hle, _ => absurd hle (by simp)
  | s :: envs, g, k + 1, h, hle, hk => by
    rw [List.length_cons] at hle
    obtain ⟨hp, hl, hc⟩ := turn_within s h
    obtain ⟨hp', hl', hc'⟩ := turns_within envs hl (by omega) (by omega)
    have hlt : k < g.popOrder.toList.length := by rw [Vector.length_toList]; omega
    have hlen : (g.popOrder.toList.take k).length = k := by rw [List.length_take]; omega
    refine ⟨hp'.trans hp, ?_, ?_⟩
    · rw [List.foldl_cons, hl', List.length_cons]
      congr 1
      omega
    · rw [List.foldl_cons, hc', hp, hc, List.length_cons, Nat.add_sub_add_right, List.take_add_one,
        List.drop_append_of_le_length (by omega), List.getD_eq_getElem?_getD, List.getElem?_eq_getElem hlt]
      simp

/-- A block of turns from one end of the order to the next takes every planet once. -/
theorem turns_block {g : Populace} (h : AtEnd g) {envs : List Server} (hl : envs.length = maxPlanets) :
    AtEnd (envs.foldl turn g) ∧ ∃ popped, (envs.foldl turn g).calls = popped ++ g.calls ∧
      popped.Perm planetNumbers.toList := by
  cases envs with
  | nil => cases hl
  | cons s envs =>
    rw [List.length_cons] at hl
    obtain ⟨hp, hlast, hc⟩ := turn_atEnd s h
    have hn : envs.length = maxPlanets - 1 := by omega
    obtain ⟨hp', hl', hc'⟩ := turns_within envs (k := maxPlanets - 1) hlast (by omega) (by omega)
    have hlen : (turn g s).popOrder.toList.length = maxPlanets := Vector.length_toList
    rw [List.foldl_cons]
    refine ⟨⟨?_, .inr ?_⟩, (turn g s).popOrder.toList, ?_, hp⟩
    · rw [hl', hn, Nat.sub_self]; rfl
    · unfold Populace.Shuffled
      rw [hp']
      exact hp
    · rw [hc', hc, hn, Nat.sub_self, List.drop_zero]
      have hlt : maxPlanets - 1 < (turn g s).popOrder.toList.length := by rw [hlen]; decide
      -- what the turns within the block took, and the entry taken first
      have hsplit : (turn g s).popOrder.toList.take (maxPlanets - 1) ++ [(turn g s).popOrder.toList[maxPlanets - 1]] =
          (turn g s).popOrder.toList := by
        rw [List.take_concat_get']
        exact List.take_of_length_le (by rw [hlen]; decide)
      rw [List.getD_eq_getElem?_getD, List.getElem?_eq_getElem hlt, Option.getD_some]
      conv => rhs; rw [← hsplit]
      simp

/-- Blocks of turns lead from one end of the order to another. -/
theorem turns_atEnd : ∀ (n : Nat) {g : Populace} (envs : List Server), AtEnd g → envs.length = n * maxPlanets →
    AtEnd (envs.foldl turn g)
  | 0, _, envs, h, hl => by
    rw [Nat.zero_mul] at hl
    rw [List.eq_nil_of_length_eq_zero hl]
    exact h
  | n + 1, g, envs, h, hl => by
    rw [Nat.succ_mul] at hl
    rw [← List.take_append_drop maxPlanets envs, List.foldl_append]
    apply turns_atEnd n
    · exact (turns_block h (by rw [List.length_take]; omega)).1
    · rw [List.length_drop]
      omega

/-- A turn from a shuffled table leads to one. -/
theorem turn_shuffled {g : Populace} (s : Server) (h : g.Shuffled) : (turn g s).Shuffled := by
  unfold turn udplanets
  dsimp only
  split
  · unfold Populace.Shuffled
    rw [popOrder_popPlanet]
    exact (randomizePopOrder_spec (g := { g with server := s, lastpop := g.lastpop - 1 }) (.inr h)).1
  · unfold Populace.Shuffled
    rw [popOrder_popPlanet]
    exact h

theorem turns_shuffled : ∀ (envs : List Server) {g : Populace}, g.Shuffled → (envs.foldl turn g).Shuffled
  | [], _, h => h
  | s :: envs, _, h => turns_shuffled envs (turn_shuffled s h)

/-- From the start of the daemon on, whatever random numbers are drawn and whatever else happens between the calls, each
block of as many calls as there are planets populates every planet once, and after any call the table has each planet
number once. -/
theorem every_planet_grows {g : Populace} (h : Started g) :
    (∀ (n : Nat) (before block : List Server), before.length = n * maxPlanets → block.length = maxPlanets →
      ∃ popped, ((before ++ block).foldl turn g).calls = popped ++ (before.foldl turn g).calls ∧
        popped.Perm planetNumbers.toList) ∧
    ∀ (s : Server) (envs : List Server), ((s :: envs).foldl turn g).Shuffled := by
  constructor
  · intro n before block hb hl
    rw [List.foldl_append]
    exact (turns_block (turns_atEnd n before h.atEnd hb) hl).2
  · intro s envs
    exact turns_shuffled envs (turn_atEnd s h.atEnd).1

/-- The daemon as it starts. -/
def started : Populace where
  server := default
  maxPop := 999
  planetPlague := true
  popOrder := .ofFn fun i => if i.val = 0 then -1 else 0
  lastpop := 0
  calls := []

theorem started_started : Started started where
  popOrder := rfl
  lastpop := rfl

/-- In eighty calls each planet comes up twice, once in each half. -/
theorem every_planet_grows_twice :
    ∃ once again, ((List.replicate 80 default).foldl turn started).calls = again ++ once ∧
      once.Perm planetNumbers.toList ∧ again.Perm planetNumbers.toList := by
  obtain ⟨once, honce, hperm⟩ := (every_planet_grows started_started).1 0 [] (List.replicate 40 default) rfl (by simp [maxPlanets])
  obtain ⟨again, hagain, hperm'⟩ :=
    (every_planet_grows started_started).1 1 (List.replicate 40 default) (List.replicate 40 default) (by simp [maxPlanets])
      (by simp [maxPlanets])
  refine ⟨once, again, ?_, hperm, hperm'⟩
  rw [← List.replicate_add] at hagain
  rw [hagain, ← List.nil_append (List.replicate 40 default), honce]
  exact congrArg _ (List.append_nil once)

end Netrek.Planets
