/-
Who is seen: `udplayersight` of `ntserv/daemon.c`. A ship remembers who saw it last, and that one is asked
before all others are. It is not asked whether it is still an enemy, and its squared distance is
compared in a word, so the answer may differ from that of the search.
-/
import Mathlib.Algebra.Order.Ring.Abs
import Mathlib.Algebra.Order.Ring.Int
import NetrekServer.Lib.Run
import NetrekServer.Lib.Sweep
import NetrekServer.Struct

namespace Netrek.Daemon

open Netrek.Lib

/-! ## The update -/

/-- Shared memory, with `p_lastseenby` of each player. -/
structure Sight where
  mem : Memory
  lastSeenBy : Slot → Option Slot

namespace Sight

/-- A player who is not alive, or orbits a planet of another team, is seen in any case. -/
def exposed (m : Memory) (j : Slot) : Bool :=
  let p := m.players j
  p.status != .palive || (p.flags.has pfOrbit && (m.planets p.planet).owner != p.team)

/-- How far a ship is seen. -/
def maxDist (p : Player) : Int := if p.flags.has pfCloak then gWidth / 7 else gWidth / 3

/-- The square of the distance of two ships. -/
def square (k j : Player) : Int := (k.x - j.x) * (k.x - j.x) + (k.y - j.y) * (k.y - j.y)

/-- Who saw `j` last seems to see it still; the square is taken as an unsigned word. -/
def stillSeen (m : Memory) (j k : Slot) : Bool :=
  let far := maxDist (m.players j)
  (m.players k).status == .palive && decide (square (m.players k) (m.players j) % 2 ^ 32 < far * far)

/-- The search finds that `k` sees `j`. -/
def spots (m : Memory) (j k : Slot) : Bool :=
  let p := m.players j
  let q := m.players k
  let far := maxDist p
  q.status == .palive && !q.flags.has pfRobot && q.team != p.team &&
    !decide (far < q.x - p.x ∨ q.x - p.x < -far) && !decide (far < q.y - p.y ∨ q.y - p.y < -far) &&
      decide (square q p % 2 ^ 32 ≤ far * far)

/-- The flag of `j` is set, or cleared. -/
def setSeen (s : Sight) (j : Slot) : Sight := { s with mem := s.mem.modifyPlayer j fun p => p.setFlags pfSeen }
def clearSeen (s : Sight) (j : Slot) : Sight := { s with mem := s.mem.modifyPlayer j fun p => p.clearFlags pfSeen }

def remember (s : Sight) (j : Slot) (k : Option Slot) : Sight :=
  { s with lastSeenBy := Function.update s.lastSeenBy j k }

/-- The search for an enemy who sees `j`. -/
def search (s : Sight) (j : Slot) : Sight :=
  let s := (s.clearSeen j).remember j none
  match (List.finRange maxPlayer).find? (spots s.mem j) with
  | none => s
  | some k => (s.setSeen j).remember j (some k)

/-- One turn of the loop of `udplayersight`. -/
def update (s : Sight) (j : Slot) : Sight :=
  if exposed s.mem j then s.setSeen j
  else
    match s.lastSeenBy j with
    | none => s.search j
    | some k => if stillSeen s.mem j k then s else s.search j

/-- `udplayersight`. -/
def udplayersight (s : Sight) : Sight := (List.finRange maxPlayer).foldl update s

/-! ## What should be seen -/

/-- A live ship of another team that is no robot is near enough to see `j`. -/
def Sees (m : Memory) (k j : Slot) : Prop :=
  (m.players k).status = .palive ∧ (m.players k).flags.has pfRobot = false ∧ (m.players k).team ≠ (m.players j).team ∧
    square (m.players k) (m.players j) ≤ maxDist (m.players j) * maxDist (m.players j)

/-- A ship that is not exposed is seen exactly if an enemy sees it. -/
def Sound (s : Sight) : Prop :=
  ∀ j, exposed s.mem j = false → ((s.mem.players j).flags.has pfSeen = true ↔ ∃ k, Sees s.mem k j)

/-- The ship is no robot, is on another team than `j`, and is not so far off that the square overflows. -/
def Foe (m : Memory) (k j : Slot) : Prop :=
  (m.players k).flags.has pfRobot = false ∧ (m.players k).team ≠ (m.players j).team ∧
    square (m.players k) (m.players j) < 2 ^ 32

/-- A ship that seems to see `j` still is a foe of it, or another ship sees `j`. -/
def Trusts (s : Sight) : Prop :=
  ∀ j, exposed s.mem j = false → ∀ k, s.lastSeenBy j = some k → stillSeen s.mem j k = true →
    Foe s.mem k j ∨ ∃ i, i ≠ k ∧ Sees s.mem i j

/-! ## The search -/

theorem mul_self_le_iff {d far : Int} (hfar : 0 ≤ far) : d * d ≤ far * far ↔ -far ≤ d ∧ d ≤ far := by
  rw [← abs_mul_abs_self d, ← abs_le]
  exact (mul_self_le_mul_self_iff (abs_nonneg d) hfar).symm

theorem maxDist_range (p : Player) : 0 ≤ maxDist p ∧ maxDist p ≤ 33333 := by
  unfold maxDist
  split <;> decide

/-- Of the ships that seem to see `j` still, the foes do. -/
theorem sees_iff_of_stillSeen {m : Memory} {j k : Slot} (h : stillSeen m j k = true) : Sees m k j ↔ Foe m k j := by
  unfold stillSeen at h
  dsimp only at h
  rw [Bool.and_eq_true, beq_iff_eq, decide_eq_true_eq] at h
  obtain ⟨halive, hnear⟩ := h
  obtain ⟨hfar₀, hfar⟩ := maxDist_range (m.players j)
  have hsq : maxDist (m.players j) * maxDist (m.players j) ≤ 33333 * 33333 := mul_le_mul hfar hfar hfar₀ (by decide)
  constructor
  · rintro ⟨-, hrobot, hteam, hle⟩
    exact ⟨hrobot, hteam, by omega⟩
  · rintro ⟨hrobot, hteam, hlt⟩
    have hnonneg : 0 ≤ square (m.players k) (m.players j) := add_nonneg (mul_self_nonneg _) (mul_self_nonneg _)
    rw [Int.emod_eq_of_lt hnonneg hlt] at hnear
    exact ⟨halive, hrobot, hteam, hnear.le⟩

/-- Within the box nothing overflows, and nobody outside it is near enough. -/
theorem spots_iff {m : Memory} {j k : Slot} : spots m j k = true ↔ Sees m k j := by
  have hfar := maxDist_range (m.players j)
  generalize hd : maxDist (m.players j) = far at hfar
  unfold spots Sees
  simp only [Bool.and_eq_true, beq_iff_eq, Bool.not_eq_true', bne_iff_ne, decide_eq_true_eq, decide_eq_false_iff_not,
    not_or, not_lt, and_assoc, hd]
  refine and_congr_right fun _ => and_congr_right fun _ => and_congr_right fun _ => ?_
  unfold square
  generalize (m.players k).x - (m.players j).x = dx
  generalize (m.players k).y - (m.players j).y = dy
  have hx := mul_self_le_iff (d := dx) hfar.1
  have hy := mul_self_le_iff (d := dy) hfar.1
  have hx0 := mul_self_nonneg dx
  have hy0 := mul_self_nonneg dy
  have hff : far * far ≤ 33333 * 33333 := mul_le_mul hfar.2 hfar.2 hfar.1 (by decide)
  constructor
  · rintro ⟨hx₁, hx₂, hy₁, hy₂, hsq⟩
    have := hx.2 ⟨hx₂, hx₁⟩
    have := hy.2 ⟨hy₂, hy₁⟩
    rwa [Int.emod_eq_of_lt (by omega) (by omega)] at hsq
  · intro hsq
    obtain ⟨hx₂, hx₁⟩ := hx.1 (by omega)
    obtain ⟨hy₂, hy₁⟩ := hy.1 (by omega)
    refine ⟨hx₁, hx₂, hy₁, hy₂, ?_⟩
    rwa [Int.emod_eq_of_lt (by omega) (by omega)]

/-! ## The loop -/

/-- Shared memory without the flags that the update is about. -/
def blind (m : Memory) : Memory := { m with players := fun i => (m.players i).clearFlags pfSeen }

theorem has_blind {p : Player} {m : Word} (h : ~~~pfSeen &&& m = m) : (p.clearFlags pfSeen).flags.has m = p.flags.has m :=
  Word.has_andNot h

theorem exposed_blind (m : Memory) (j : Slot) : exposed (blind m) j = exposed m j := by
  show ((m.players j).status != .palive || (((m.players j).clearFlags pfSeen).flags.has pfOrbit && _)) = _
  rw [has_blind (by decide)]
  rfl

theorem maxDist_blind (m : Memory) (j : Slot) : maxDist ((blind m).players j) = maxDist (m.players j) := by
  show (if ((m.players j).clearFlags pfSeen).flags.has pfCloak then _ else _) = _
  rw [has_blind (by decide)]
  rfl

theorem stillSeen_blind (m : Memory) (j k : Slot) : stillSeen (blind m) j k = stillSeen m j k := by
  unfold stillSeen
  rw [maxDist_blind]
  rfl

theorem sees_blind {m : Memory} {j k : Slot} : Sees (blind m) k j ↔ Sees m k j := by
  unfold Sees
  rw [maxDist_blind, show ((blind m).players k).flags.has pfRobot = _ from has_blind (by decide)]
  rfl

theorem spots_blind (m : Memory) (j : Slot) : spots (blind m) j = spots m j := by
  funext k
  exact Bool.eq_iff_iff.2 (spots_iff.trans (sees_blind.trans spots_iff.symm))

theorem blind_modifyPlayer (m : Memory) (j : Slot) {f : Player → Player}
    (hf : ∀ p, (f p).clearFlags pfSeen = p.clearFlags pfSeen) : blind (m.modifyPlayer j f) = blind m := by
  unfold blind Memory.modifyPlayer
  dsimp only
  congr 1
  funext i
  rw [Function.update_apply]
  split
  · next h => rw [h, hf]
  · rfl

theorem blind_setSeen (s : Sight) (j : Slot) : blind (s.setSeen j).mem = blind s.mem := by
  refine blind_modifyPlayer s.mem j (f := fun p => p.setFlags pfSeen) fun p => ?_
  have hbits : (p.flags ||| pfSeen) &&& ~~~pfSeen = p.flags &&& ~~~pfSeen := by
    ext i hi
    simp only [BitVec.getElem_and, BitVec.getElem_or, BitVec.getElem_not]
    cases p.flags[i] <;> cases pfSeen[i] <;> rfl
  show { p with flags := (p.flags ||| pfSeen) &&& ~~~pfSeen } = { p with flags := p.flags &&& ~~~pfSeen }
  rw [hbits]

theorem blind_clearSeen (s : Sight) (j : Slot) : blind (s.clearSeen j).mem = blind s.mem := by
  refine blind_modifyPlayer s.mem j (f := fun p => p.clearFlags pfSeen) fun p => ?_
  have hbits : (p.flags &&& ~~~pfSeen) &&& ~~~pfSeen = p.flags &&& ~~~pfSeen := by
    rw [BitVec.and_assoc, BitVec.and_self]
  show { p with flags := (p.flags &&& ~~~pfSeen) &&& ~~~pfSeen } = { p with flags := p.flags &&& ~~~pfSeen }
  rw [hbits]

/-- Whether a player is seen, and by whom. -/
def answer (s : Sight) (j : Slot) : Bool × Option Slot := ((s.mem.players j).flags.has pfSeen, s.lastSeenBy j)

@[simp] theorem answer_setSeen (s : Sight) (j i : Slot) :
    (s.setSeen j).answer i = if i = j then (true, s.lastSeenBy j) else s.answer i := by
  show (((Function.update s.mem.players j _ i).flags.has pfSeen, s.lastSeenBy i) : Bool × Option Slot) = _
  rw [Function.update_apply]
  split
  · next h =>
    subst h
    exact Prod.ext (Word.has_set (by decide)) rfl
  · rfl

@[simp] theorem answer_clearSeen (s : Sight) (j i : Slot) :
    (s.clearSeen j).answer i = if i = j then (false, s.lastSeenBy j) else s.answer i := by
  show (((Function.update s.mem.players j _ i).flags.has pfSeen, s.lastSeenBy i) : Bool × Option Slot) = _
  rw [Function.update_apply]
  split
  · next h =>
    subst h
    refine Prod.ext ?_ rfl
    show Word.has ((s.mem.players i).flags &&& ~~~pfSeen) pfSeen = false
    unfold Word.has
    rw [BitVec.and_assoc, show ~~~pfSeen &&& pfSeen = 0 by decide]
    simp
  · rfl

@[simp] theorem answer_remember (s : Sight) (j i : Slot) (k : Option Slot) :
    (s.remember j k).answer i = if i = j then ((s.answer j).1, k) else s.answer i := by
  show ((_, Function.update s.lastSeenBy j k i) : Bool × Option Slot) = _
  rw [Function.update_apply]
  split
  · next h =>
    subst h
    rfl
  · rfl

/-- What the search answers. -/
def searched (m : Memory) (j : Slot) : Bool × Option Slot :=
  let k := (List.finRange maxPlayer).find? (spots m j)
  (k.isSome, k)

/-- The search for a ship answers for that ship. -/
theorem answer_search (s : Sight) (j i : Slot) :
    (s.search j).answer i = if i = j then searched (blind s.mem) j else s.answer i := by
  have hspots : spots ((s.clearSeen j).remember j none).mem j = spots (blind s.mem) j := by
    rw [← blind_clearSeen s j, spots_blind]
    rfl
  unfold search searched
  dsimp only
  rw [hspots]
  cases (List.finRange maxPlayer).find? (spots (blind s.mem) j) with
  | none =>
    by_cases h : i = j
    · simp [h]
    · simp [h]
  | some k =>
    by_cases h : i = j
    · simp [h]
    · simp [h]

/-- A turn of the loop, with what it makes of the answer of its player. -/
def sweep : Sweep Sight Slot (Bool × Option Slot) Memory where
  step := update
  cell := answer
  view s := blind s.mem
  turn m j a :=
    if exposed m j then (true, a.2)
    else
      match a.2 with
      | none => searched m j
      | some k => if stillSeen m j k then a else searched m j
  view_step s j := by
    have hsearch : blind (s.search j).mem = blind s.mem := by
      unfold search
      dsimp only
      split
      · exact blind_clearSeen s j
      · exact (blind_setSeen _ j).trans (blind_clearSeen s j)
    unfold update
    split
    · exact blind_setSeen s j
    · split
      · exact hsearch
      · split
        · rfl
        · exact hsearch
  cell_self s j := by
    unfold update
    rw [exposed_blind]
    split
    · rw [answer_setSeen, if_pos rfl]
      rfl
    · show _ = match s.lastSeenBy j with
        | none => _
        | some k => if stillSeen (blind s.mem) j k then s.answer j else _
      cases s.lastSeenBy j with
      | none => exact (answer_search s j j).trans (if_pos rfl)
      | some k =>
        dsimp only
        rw [stillSeen_blind]
        split
        · rfl
        · exact (answer_search s j j).trans (if_pos rfl)
  cell_other s j i hi := by
    have hsearch : (s.search j).answer i = s.answer i := (answer_search s j i).trans (if_neg hi)
    unfold update
    split
    · exact (answer_setSeen s j i).trans (if_neg hi)
    · split
      · exact hsearch
      · split
        · rfl
        · exact hsearch

theorem sweep_step : sweep.step = update := rfl

theorem blind_udplayersight (s : Sight) : blind s.udplayersight.mem = blind s.mem := by
  unfold udplayersight
  rw [← sweep_step]
  exact sweep.view_foldl _ s

/-- What the update answers about a player. -/
theorem answer_udplayersight (s : Sight) (j : Slot) : s.udplayersight.answer j = sweep.turn (blind s.mem) j (s.answer j) := by
  unfold udplayersight
  rw [← sweep_step]
  exact sweep.cell_of_mem (List.nodup_finRange maxPlayer) (List.mem_finRange j) s

/-! ## One update -/

theorem searched_iff {m : Memory} {j : Slot} : (searched m j).1 = true ↔ ∃ k, Sees m k j := by
  unfold searched
  dsimp only
  rw [List.find?_isSome]
  constructor
  · rintro ⟨k, -, hk⟩
    exact ⟨k, spots_iff.1 hk⟩
  · rintro ⟨k, hk⟩
    exact ⟨k, List.mem_finRange k, spots_iff.2 hk⟩

/-- A live ship that remembers who saw it is marked as seen. -/
def Remembers (s : Sight) : Prop :=
  ∀ j, (s.mem.players j).status = .palive → ∀ k, s.lastSeenBy j = some k → (s.mem.players j).flags.has pfSeen = true

theorem exposed_udplayersight (s : Sight) (j : Slot) : exposed s.udplayersight.mem j = exposed s.mem j := by
  rw [← exposed_blind, blind_udplayersight, exposed_blind]

theorem sees_udplayersight {s : Sight} {k j : Slot} : Sees s.udplayersight.mem k j ↔ Sees s.mem k j := by
  rw [← sees_blind, blind_udplayersight, sees_blind]

theorem status_blind (m : Memory) (j : Slot) : ((blind m).players j).status = (m.players j).status := rfl

theorem status_udplayersight (s : Sight) (j : Slot) :
    (s.udplayersight.mem.players j).status = (s.mem.players j).status := by
  rw [← status_blind, blind_udplayersight, status_blind]

theorem answer_fst (s : Sight) (j : Slot) : (s.answer j).1 = (s.mem.players j).flags.has pfSeen := rfl

theorem answer_snd (s : Sight) (j : Slot) : (s.answer j).2 = s.lastSeenBy j := rfl

/-- A call marks the live ships whose viewer it remembers. -/
theorem Remembers.udplayersight {s : Sight} (h : Remembers s) : Remembers s.udplayersight := by
  intro j hj k hk
  rw [status_udplayersight] at hj
  have hanswer := answer_udplayersight s j
  have hlast := (answer_snd _ j).trans hk
  have hsearched (hs : (searched (blind s.mem) j).2 = some k) : (searched (blind s.mem) j).1 = true := by
    unfold searched at hs ⊢
    dsimp only at hs ⊢
    rw [hs]
    rfl
  rw [← answer_fst]
  rw [hanswer] at hlast ⊢
  unfold sweep at hlast ⊢
  dsimp only at hlast ⊢
  split at hlast
  · next he => rw [if_pos he]
  · next he =>
    rw [if_neg he]
    cases hl : (s.answer j).2 with
    | none =>
      rw [hl] at hlast
      exact hsearched hlast
    | some i =>
      rw [hl] at hlast
      dsimp only at hlast ⊢
      split at hlast
      · next ht =>
        rw [if_pos ht]
        exact h j hj i hl
      · next ht =>
        rw [if_neg ht]
        exact hsearched hlast

/-- An update is sound exactly if the ships whose memories it trusts are seen. -/
theorem sound_iff_seen {s : Sight} (h : Remembers s) : Sound s.udplayersight ↔ ∀ j, exposed s.mem j = false →
    ∀ k, s.lastSeenBy j = some k → stillSeen s.mem j k = true → ∃ i, Sees s.mem i j := by
  refine forall_congr' fun j => ?_
  rw [exposed_udplayersight]
  refine imp_congr_right fun he => ?_
  simp only [sees_udplayersight]
  have hlive : (s.mem.players j).status = .palive := by
    unfold exposed at he
    dsimp only at he
    rw [Bool.or_eq_false_iff] at he
    simpa using he.1
  have hsearched : (searched (blind s.mem) j).1 = true ↔ ∃ k, Sees s.mem k j :=
    searched_iff.trans (exists_congr fun k => sees_blind)
  rw [← answer_fst, answer_udplayersight]
  unfold sweep
  dsimp only
  rw [exposed_blind, if_neg (by rw [he]; exact Bool.false_ne_true)]
  cases hl : (s.answer j).2 with
  | none =>
    have hnone : s.lastSeenBy j = none := hl
    refine iff_of_true hsearched fun k hk => ?_
    rw [hnone] at hk
    cases hk
  | some k =>
    have hsome : s.lastSeenBy j = some k := hl
    dsimp only
    rw [stillSeen_blind]
    by_cases ht : stillSeen s.mem j k = true
    · rw [if_pos ht]
      have hseen : (s.answer j).1 = true := h j hlive k hsome
      constructor
      · intro hiff i hi _
        exact hiff.1 hseen
      · intro htrust
        exact iff_of_true hseen (htrust k hsome ht)
    · rw [if_neg ht]
      refine iff_of_true hsearched fun i hi hs => ?_
      rw [hsome] at hi
      cases hi
      exact absurd hs ht

/-- That is so exactly if those they remember are foes, or others see them. -/
theorem sound_udplayersight_iff {s : Sight} (h : Remembers s) : Sound s.udplayersight ↔ Trusts s := by
  rw [sound_iff_seen h]
  refine forall₄_congr fun j _ k _ => imp_congr_right fun hstill => ?_
  rw [← sees_iff_of_stillSeen hstill]
  constructor
  · rintro ⟨i, hi⟩
    by_cases hik : i = k
    · exact .inl (hik ▸ hi)
    · exact .inr ⟨i, hik, hi⟩
  · rintro (hk | ⟨i, -, hi⟩)
    · exact ⟨k, hk⟩
    · exact ⟨i, hi⟩

/-! ## Runs -/

/-- What happens between updates, and an update. -/
inductive Change
  | move (j : Slot) (x y : Int)
  | cloak (j : Slot) (on : Bool)
  | orbit (j : Slot) (l : Option (Fin maxPlanets))
  | capture (l : Fin maxPlanets) (owner : Word)
  | die (j : Slot) (status : PStatus)
  | enter (j : Slot) (team : Word) (robot : Bool) (x y : Int)
  | joinTeam (j : Slot) (team : Word)
  | free (j : Slot)
  | sight

def modify (s : Sight) (j : Slot) (f : Player → Player) : Sight := { s with mem := s.mem.modifyPlayer j f }

def change (s : Sight) : Change → Sight
  | .move j x y => s.modify j fun p => { p with x := x, y := y }
  | .cloak j on => s.modify j fun p => if on then p.setFlags pfCloak else p.clearFlags pfCloak
  | .orbit j l =>
    match l with
    | none => s.modify j fun p => p.clearFlags pfOrbit
    | some l => s.modify j fun p => { p.setFlags pfOrbit with planet := l }
  | .capture l owner => { s with mem := s.mem.modifyPlanet l fun x => { x with owner := owner } }
  | .die j status => s.modify j fun p => { p with status := status }
  -- a ship that enters is not marked, and remembers nobody
  | .enter j team robot x y =>
    (s.modify j fun p =>
      { p with status := .palive, team := team, x := x, y := y
               flags := pfShield ||| pfGreen ||| (if robot then pfRobot else 0) }).remember j none
  | .joinTeam j team => s.modify j fun p => { p with team := team }
  | .free j => s.modify j fun p => { p with status := .pfree, flags := 0 }
  | .sight => s.udplayersight

def lawful (_ : Sight) : Change → Prop
  | .die _ status => status ≠ .palive
  | _ => True

/-- A change that neither brings a ship to life nor touches what is seen. -/
theorem Remembers.modify {s : Sight} (h : Remembers s) (j : Slot) {f : Player → Player}
    (hf : ∀ p, (f p).status = .palive → p.status = .palive ∧ (f p).flags.has pfSeen = p.flags.has pfSeen) :
    Remembers (s.modify j f) := by
  intro i hi k hk
  have hplayer : (s.modify j f).mem.players i = if i = j then f (s.mem.players j) else s.mem.players i := by
    show Function.update s.mem.players j _ i = _
    rw [Function.update_apply]
  rw [hplayer] at hi ⊢
  split at hi
  · next hij =>
    subst hij
    obtain ⟨hp, hflag⟩ := hf _ hi
    rw [if_pos rfl, hflag]
    exact h i hp k hk
  · next hij =>
    rw [if_neg hij]
    exact h i hi k hk

/-- What happens between two calls. -/
theorem Remembers.change {s : Sight} (h : Remembers s) {a : Change} (ha : s.lawful a) : Remembers (s.change a) := by
  cases a with
  | move j x y => exact h.modify j fun p hp => ⟨hp, rfl⟩
  | cloak j on =>
    cases on with
    | true => exact h.modify j fun p hp => ⟨hp, Word.has_or (by decide)⟩
    | false => exact h.modify j fun p hp => ⟨hp, Word.has_andNot (by decide)⟩
  | orbit j l =>
    cases l with
    | none => exact h.modify j fun p hp => ⟨hp, Word.has_andNot (by decide)⟩
    | some l => exact h.modify j fun p hp => ⟨hp, Word.has_or (by decide)⟩
  | capture l owner => exact h
  | die j status => exact h.modify j fun p hp => absurd hp ha
  | enter j team robot x y =>
    intro i hi k hk
    have hplayer (i : Slot) (hij : i ≠ j) : (s.change (.enter j team robot x y)).mem.players i = s.mem.players i :=
      Function.update_of_ne hij _ _
    have hlast : (s.change (.enter j team robot x y)).lastSeenBy i = if i = j then none else s.lastSeenBy i := by
      show Function.update s.lastSeenBy j none i = _
      rw [Function.update_apply]
    rw [hlast] at hk
    split at hk
    · cases hk
    · next hij =>
      rw [hplayer i hij] at hi ⊢
      exact h i hi k hk
  | joinTeam j team => exact h.modify j fun p hp => ⟨hp, rfl⟩
  | free j => exact h.modify j fun p hp => PStatus.noConfusion hp
  | sight => exact h.udplayersight

/-- After any changes from a state in which no live ship remembers anybody, the flags are right after an update exactly if
whoever seems to see a ship still is a foe of it, or another enemy sees it. -/
theorem sight_cache_sound_iff {s s' : Sight} {ops : List Change}
    (h0 : ∀ j, (s.mem.players j).status = .palive → s.lastSeenBy j = none) (h : Run lawful change s ops s') :
    Sound s'.udplayersight ↔ Trusts s' := by
  have hstart : Remembers s := by
    intro j hj k hk
    rw [h0 j hj] at hk
    cases hk
  have hrem : Remembers s' := Run.inv (I := Remembers) (fun s a ha hs => hs.change ha) h hstart
  exact sound_udplayersight_iff hrem

/-! ## A memory that is wrong -/

/-- A ship of the Federation in slot 0 and a Romulan in slot 1, 7300 apart. -/
def pair : Sight where
  mem :=
    { (default : Memory) with
      players := fun j =>
        { (default : Player) with
          status := if j.val ≤ 1 then .palive else .pfree
          team := if j.val = 0 then fed else rom
          x := if j.val = 0 then 7300 else 0
          y := 50000 } }
  lastSeenBy _ := none

theorem sight_cache_sound_iff_pair :
    Sound (pair.change (.move 1 8000 50000)).udplayersight ↔ Trusts (pair.change (.move 1 8000 50000)) :=
  sight_cache_sound_iff (s := pair) (fun _ _ => rfl) (.cons (show lawful pair (.move 1 8000 50000) from trivial) (.nil _))

/-- After the Romulan has seen it and joined its team, or gone around the edge of the galaxy to where the square
overflows, the ship of the Federation is marked as seen, and no enemy sees it. -/
theorem sight_cache_stale :
    (∃ s', Run lawful change pair [.sight, .joinTeam 1 fed] s' ∧ ¬ Sound s'.udplayersight) ∧
      ∃ s', Run lawful change pair [.sight, .move 1 100000 50000] s' ∧ ¬ Sound s'.udplayersight := by
  have hstart : Remembers pair := by
    intro j _ k hk
    cases hk
  have hstale (a : Change) (ha : ∀ s, lawful s a) (he : exposed (pair.udplayersight.change a).mem 0 = false)
      (hl : (pair.udplayersight.change a).lastSeenBy 0 = some 1) (ht : stillSeen (pair.udplayersight.change a).mem 0 1 = true)
      (hnone : ∀ i, spots (pair.udplayersight.change a).mem 0 i = false) :
      ∃ s', Run lawful change pair [.sight, a] s' ∧ ¬ Sound s'.udplayersight := by
    refine ⟨_, .cons (show lawful pair .sight from trivial) (.cons (ha _) (.nil _)), fun hs => ?_⟩
    obtain ⟨i, hi⟩ := (sound_iff_seen (hstart.udplayersight.change (ha _))).1 hs 0 he 1 hl ht
    have := hnone i
    rw [spots_iff.2 hi] at this
    cases this
  constructor
  · exact hstale _ (fun _ => trivial) (by decide +kernel) (by decide +kernel) (by decide +kernel) (by decide +kernel)
  · exact hstale _ (fun _ => trivial) (by decide +kernel) (by decide +kernel) (by decide +kernel) (by decide +kernel)

end Sight

end Netrek.Daemon
