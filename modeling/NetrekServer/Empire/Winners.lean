/-
`displayBest` of `ntserv/daemon.c` and of `robots/inl.c`, which has the same text: the players of a team are ranked by
planets taken and armies bombed, in an array with one place more than there are slots, and those who have any are
announced. For a genocide the counters of that are read, and cleared.
-/
import NetrekServer.Inl.Game
import NetrekServer.Lib.Insertion

namespace Netrek.Empire

open Netrek.Lib Insertion

/-! ## The ranking -/

/-- `Players`. -/
structure Winner where
  name : String
  mapchars : String
  planets : Int
  armies : Int
  deriving DecidableEq, Inhabited

def Winner.score (w : Winner) : Int := 30 * w.planets + w.armies

/-- What is counted for a player: planets and armies, the ones of the genocide or all. -/
def counters (type : WhyDead) (p : Player) : Int × Int :=
  if type = .kgenocide then (p.genoplanets, p.genoarmsbomb) else (p.planets, p.armsbomb)

/-- The name is cut to its field, with the NUL that ends it. -/
def winner (type : WhyDead) (p : Player) : Winner :=
  ⟨String.ofList (p.name.toList.take 15), String.ofList (p.mapchars.toList.take 2), (counters type p).1,
    (counters type p).2⟩

/-- The player is one of the team's. -/
def onTeam (team : Word) (p : Player) : Bool := p.team == team && p.status != .pfree

/-- The loop over the slots: shared memory, the array, and how many places of it are taken. -/
structure Board where
  players : Slot → Player
  winners : List Winner
  number : Nat

/-- The counters of a genocide are cleared when they have been read. -/
def clearGeno (type : WhyDead) (p : Player) : Player :=
  if type = .kgenocide then { p with genoplanets := 0, genoarmsbomb := 0 } else p

def rankSlot (team : Word) (type : WhyDead) (b : Board) (i : Slot) : Option Board :=
  let j := b.players i
  if onTeam team j then
    let w := winner type j
    (insert (fun v => decide (v.score < w.score)) w b.number b.winners).map fun winners =>
      ⟨Function.update b.players i (clearGeno type j), winners, b.number + 1⟩
  else some b

/-- `displayBest`: what it leaves, unless an access is outside the array. -/
def displayBest (players : Slot → Player) (team : Word) (type : WhyDead) : Option Board :=
  (List.finRange maxPlayer).foldlM (rankSlot team type) ⟨players, List.replicate (maxPlayer + 1) default, 0⟩

/-- Those who are announced. -/
def Board.announced (b : Board) : List Winner :=
  (b.winners.take b.number).filter fun w => w.planets != 0 || w.armies != 0

/-! ## What it comes to -/

/-- The board after some slots: their players of the team are in the array, ranked, and the counters of the others are
as they were. -/
structure RankedUpTo (players : Slot → Player) (team : Word) (type : WhyDead) (seen : List Slot) (b : Board)
    (ws : List Slot) : Prop where
  length : b.winners.length = maxPlayer + 1
  number : b.number = ws.length
  entries : b.winners.take b.number = ws.map fun i => winner type (players i)
  perm : ws.Perm (seen.filter fun i => onTeam team (players i))
  ranked : ws.Pairwise (Ranked fun i => (winner type (players i)).score)
  players : ∀ i, b.players i =
    if i ∈ seen ∧ onTeam team (players i) = true then clearGeno type (players i) else players i

variable {players : Slot → Player} {team : Word} {type : WhyDead} {seen : List Slot} {b : Board} {ws : List Slot}

/-- One slot more. -/
theorem RankedUpTo.step (h : RankedUpTo players team type seen b ws) {i : Slot} (hi : i ∉ seen)
    (hlast : ∀ j ∈ seen, j < i) (hroom : seen.length < maxPlayer) :
    ∃ b' ws', rankSlot team type b i = some b' ∧ RankedUpTo players team type (seen ++ [i]) b' ws' := by
  have hplayer : b.players i = players i := by
    rw [h.players, if_neg fun hc => hi hc.1]
  unfold rankSlot
  simp only [hplayer]
  cases hon : onTeam team (players i) with
  | false =>
    refine ⟨b, ws, rfl, h.length, h.number, h.entries, ?_, h.ranked, fun j => ?_⟩
    · simpa [hon] using h.perm
    · rw [h.players]
      by_cases hj : j = i
      · subst hj
        simp [hon]
      · simp [hj]
  | true =>
    have hlen : ws.length ≤ seen.length := h.perm.length_eq ▸ List.length_filter_le _ _
    have hnum := h.number
    have hcap := h.length
    obtain ⟨a, ha, halen, hatake⟩ := insert_worse Winner.score (winner type (players i))
      (show b.number + 1 < b.winners.length by omega)
    rw [ha]
    refine ⟨_, ws.orderedInsert (Worse fun i => (winner type (players i)).score) i, rfl, ?_⟩
    constructor
    · exact halen.trans hcap
    · rw [List.orderedInsert_length, ← hnum]
    · show a.take (b.number + 1) = _
      rw [hatake, h.entries]
      exact (List.map_orderedInsert _ _ (fun i => winner type (players i)) ws i (fun _ _ => Iff.rfl)
        fun _ _ => Iff.rfl).symm
    · have happend : (seen ++ [i]).filter (fun i => onTeam team (players i)) =
          seen.filter (fun i => onTeam team (players i)) ++ [i] := by
        rw [List.filter_append]
        simp [hon]
      rw [happend]
      exact (List.perm_orderedInsert _ i ws).trans ((h.perm.cons i).trans (List.perm_append_singleton i _).symm)
    · refine pairwise_orderedInsert h.ranked fun j hj => hlast j ?_
      exact (List.mem_filter.1 (h.perm.mem_iff.1 hj)).1
    · intro j
      show Function.update b.players i (clearGeno type (players i)) j = _
      by_cases hj : j = i
      · subst hj
        simp [hon]
      · rw [Function.update_of_ne hj, h.players]
        simp [hj]

/-- The slots, one after another. -/
theorem rankedUpTo_foldlM {rest : List Slot} (h : RankedUpTo players team type seen b ws)
    (hs : (seen ++ rest).Pairwise (· < ·)) (hroom : (seen ++ rest).length ≤ maxPlayer) :
    ∃ b' ws', rest.foldlM (rankSlot team type) b = some b' ∧ RankedUpTo players team type (seen ++ rest) b' ws' := by
  induction rest generalizing seen b ws with
  | nil => exact ⟨b, ws, rfl, by rwa [List.append_nil]⟩
  | cons i rest ih =>
    have hlt : ∀ j ∈ seen, j < i := fun j hj => (List.pairwise_append.1 hs).2.2 j hj i List.mem_cons_self
    rw [List.length_append, List.length_cons] at hroom
    obtain ⟨b₁, ws₁, hb₁, h₁⟩ := h.step (fun hi => lt_irrefl i (hlt i hi)) hlt (by omega)
    rw [List.append_cons] at hs ⊢
    obtain ⟨b₂, ws₂, hb₂, h₂⟩ := ih h₁ hs (by rw [List.length_append, List.length_append, List.length_singleton]; omega)
    refine ⟨b₂, ws₂, ?_, h₂⟩
    rw [List.foldlM_cons, hb₁]
    exact hb₂

/-- `displayBest` ranks all the players of the team. -/
theorem displayBest_spec (players : Slot → Player) (team : Word) (type : WhyDead) :
    ∃ b ws, displayBest players team type = some b ∧
      RankedUpTo players team type (List.finRange maxPlayer) b ws := by
  have h₀ : RankedUpTo players team type [] ⟨players, List.replicate (maxPlayer + 1) default, 0⟩ [] :=
    ⟨List.length_replicate, rfl, rfl, List.Perm.refl _, List.Pairwise.nil, fun i => by simp⟩
  exact rankedUpTo_foldlM h₀ (show ([] ++ List.finRange maxPlayer).Pairwise (· < ·) from List.pairwise_lt_finRange _)
    (by rw [List.nil_append, List.length_finRange])

/-- The counters that are cleared are those of the team's players. -/
theorem RankedUpTo.players_eq (h : RankedUpTo players team type (List.finRange maxPlayer) b ws) :
    b.players = fun i => if onTeam team (players i) then clearGeno type (players i) else players i := by
  funext i
  rw [h.players]
  simp [List.mem_finRange]

/-- No access is outside the array, however many players the team has. Each of them is in it once, by 30 for each planet
and one for each army, and by slot among equals; no player's counters change but those of a genocide that were read. -/
theorem displayBest_ranked (players : Slot → Player) (team : Word) (type : WhyDead) :
    ∃ (b : Board) (ws : List Slot), displayBest players team type = some b ∧
      b.winners.length = maxPlayer + 1 ∧
      b.winners.take b.number = ws.map (fun i => winner type (players i)) ∧
      b.number = ws.length ∧
      ws.Perm ((List.finRange maxPlayer).filter fun i => onTeam team (players i)) ∧
      ws.Nodup ∧
      ws.Pairwise (Ranked fun i => 30 * (counters type (players i)).1 + (counters type (players i)).2) ∧
      b.players = fun i => if onTeam team (players i) then clearGeno type (players i) else players i := by
  obtain ⟨b, ws, hb, h⟩ := displayBest_spec players team type
  exact ⟨b, ws, hb, h.length, h.entries, h.number, h.perm, h.perm.nodup_iff.2 ((List.nodup_finRange _).filter _),
    h.ranked, h.players_eq⟩

/-- The robot of a league game lists a genocide's best with it. -/
theorem listBest_eq (r : Inl.Robot) (team : Word) :
    ∃ b, displayBest r.mem.players team .kgenocide = some b ∧ (Inl.listBest r team).mem.players = b.players := by
  obtain ⟨b, ws, hb, h⟩ := displayBest_spec r.mem.players team .kgenocide
  refine ⟨b, hb, ?_⟩
  rw [h.players_eq]
  funext i
  unfold Inl.listBest onTeam clearGeno
  by_cases ht : (r.mem.players i).team = team <;> by_cases hs : (r.mem.players i).status = .pfree <;> simp [ht, hs]

end Netrek.Empire
