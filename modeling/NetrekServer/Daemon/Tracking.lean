/-
Tracking torps: what `t_track` of `ntserv/daemon.c` turns towards. It keeps the square of the least
distance in a word, and passes over ships outside the box of that distance, rounded down. As long as
no square overflows it turns towards the nearest ship, or one as near in whole units that stands
before it in the table.
-/
import NetrekServer.Daemon.Torps
import NetrekServer.Lib.Nearest

namespace Netrek.Daemon

open Netrek.Lib

variable {s : Server} {t : Torp} {j : Slot}

/-! ## Ships within reach -/

def offsetX (s : Server) (t : Torp) (j : Slot) : Int := spo (t.xInternal - (s.player j).xInternal)
def offsetY (s : Server) (t : Torp) (j : Slot) : Int := spo (t.yInternal - (s.player j).yInternal)

/-- The square of the distance. -/
def distSq (s : Server) (t : Torp) (j : Slot) : Int := offsetX s t j * offsetX s t j + offsetY s t j * offsetY s t j

/-- The direction of the ship, from the heading of the torp. -/
def bearing (s : Server) (t : Torp) (j : Slot) : Int := (s.setup.toDir (offsetX s t j) (offsetY s t j) - t.dir).toNat

/-- How far the torp can turn until its fuse has burned. -/
def turnsLeft (s : Server) (t : Torp) : Int := (t.turns * t.fuse).tdiv s.setup.tpf

/-- A live ship of another player, at war with the torp. -/
def Hostile (s : Server) (t : Torp) (j : Slot) : Prop :=
  (s.player j).status = .palive ∧ j ≠ t.owner ∧
    ((s.player j).team = (s.player t.owner).team → (s.player j).flags.has pfPractr = true) ∧
    (t.war.has (s.player j).team || t.team.has (s.player j).war) = true

/-- A hostile ship near enough, and in the arc the torp can still turn through. -/
def Reachable (s : Server) (t : Torp) (j : Slot) : Prop :=
  Hostile s t j ∧ (|offsetX s t j| < 65535 ∧ |offsetY s t j| < 65535) ∧
    (127 < turnsLeft s t ∨ bearing s t j < turnsLeft s t ∨ 256 - turnsLeft s t < bearing s t j)

instance : Decidable (Hostile s t j) := inferInstanceAs (Decidable (_ ∧ _))
instance : Decidable (Reachable s t j) := inferInstanceAs (Decidable (_ ∧ _))

def reachable (s : Server) (t : Torp) : List Slot := (List.finRange maxPlayer).filter fun j => Reachable s t j

/-- A nearest ship within reach. -/
structure Nearest (s : Server) (t : Torp) (j : Slot) : Prop where
  reach : Reachable s t j
  least : ∀ k, Reachable s t k → distSq s t j ≤ distSq s t k

/-- The side of the torp on which the ship is: -1 or 1. -/
def side (s : Server) (t : Torp) (j : Slot) : Int := if 127 < bearing s t j then -1 else 1

/-- The torp turns to a side. -/
def turnTo (t : Torp) (side : Int) : Torp :=
  { t with dir := if side < 0 then t.dir - UInt8.ofInt t.turns else t.dir + UInt8.ofInt t.turns }

/-- The torp turns towards a nearest ship within reach, and does not turn if there is none. -/
def Tracks (s : Server) (t : Torp) : Prop :=
  (∃ j, Nearest s t j ∧ tTrack s t = turnTo t (side s t j)) ∨ (∀ j, ¬ Reachable s t j) ∧ tTrack s t = t

/-! ## The search -/

/-- A ship is no further off in one direction than in all. -/
theorem offset_sq_le (s : Server) (t : Torp) (j : Slot) :
    max (offsetX s t j).natAbs (offsetY s t j).natAbs * max (offsetX s t j).natAbs (offsetY s t j).natAbs ≤
      (distSq s t j).toNat := by
  have hx := Int.natAbs_mul_self (a := offsetX s t j)
  have hy := Int.natAbs_mul_self (a := offsetY s t j)
  have hd : distSq s t j = ((offsetX s t j).natAbs * (offsetX s t j).natAbs +
      (offsetY s t j).natAbs * (offsetY s t j).natAbs : Nat) := by
    unfold distSq
    push_cast
    rw [← hx, ← hy]
    push_cast
    rfl
  rw [hd, Int.toNat_natCast]
  rcases Nat.le_total (offsetX s t j).natAbs (offsetY s t j).natAbs with h | h
  · rw [max_eq_right h]
    exact Nat.le_add_left _ _
  · rw [max_eq_left h]
    exact Nat.le_add_right _ _

/-- The ships, as the torp sees them. -/
def scene (s : Server) (t : Torp) : Scene Slot where
  sq j := (distSq s t j).toNat
  reach j := max (offsetX s t j).natAbs (offsetY s t j).natAbs
  reach_le := offset_sq_le s t
  limit := 2 ^ 32

/-- What the loop of `t_track` keeps of the ship it has found. -/
def found (s : Server) (t : Torp) : Option Slot → Track
  | none => ⟨65535, 0xffffffff, 0⟩
  | some c => ⟨((scene s t).kept c).sqrt, (scene s t).kept c, side s t c⟩

theorem kept_eq (s : Server) (t : Torp) (j : Slot) : distSq s t j % 2 ^ 32 = ((scene s t).kept j : Int) := by
  have hnonneg : 0 ≤ distSq s t j := add_nonneg (mul_self_nonneg _) (mul_self_nonneg _)
  show _ = (((distSq s t j).toNat % 2 ^ 32 : Nat) : Int)
  omega

/-- A sum of two squares does not leave three when divided by four, so the search starts above all of them. -/
theorem kept_lt (s : Server) (t : Torp) (j : Slot) : (scene s t).kept j < 0xffffffff := by
  have hk := kept_eq s t j
  have hmod (x : Int) : x * x % 4 = 0 ∨ x * x % 4 = 1 := by
    rcases Int.emod_two_eq_zero_or_one x with h | h
    · obtain ⟨y, rfl⟩ := Int.dvd_of_emod_eq_zero h
      exact .inl (by rw [show 2 * y * (2 * y) = 4 * (y * y) by ring]; omega)
    · obtain ⟨y, rfl⟩ : ∃ y, x = 2 * y + 1 := ⟨x / 2, by omega⟩
      exact .inr (by rw [show (2 * y + 1) * (2 * y + 1) = 4 * (y * y + y) + 1 by ring]; omega)
  have hx := hmod (offsetX s t j)
  have hy := hmod (offsetY s t j)
  unfold distSq at hk
  omega

/-- The box of what has been found is no larger than the first. -/
theorem range_found_le (s : Server) (t : Torp) (best : Option Slot) : (found s t best).range ≤ 65535 := by
  cases best with
  | none => exact le_rfl
  | some c =>
    have := kept_lt s t c
    have hsqrt : ((scene s t).kept c).sqrt < 65536 := Nat.sqrt_lt.2 (by omega)
    show (((scene s t).kept c).sqrt : Int) ≤ 65535
    omega

theorem reach_lt_iff {n : Nat} : (scene s t).reach j < n ↔ |offsetX s t j| < n ∧ |offsetY s t j| < n := by
  show max _ _ < n ↔ _
  rw [max_lt_iff, Int.abs_eq_natAbs, Int.abs_eq_natAbs]
  omega

/-- One turn of the loop. -/
theorem tTrackOn_found (best : Option Slot) (j : Slot) :
    tTrackOn s t (found s t best) j = found s t (if Reachable s t j then (scene s t).look best j else best) := by
  have hkept := kept_eq s t j
  have hlt := kept_lt s t j
  have hrange := range_found_le s t best
  unfold tTrackOn
  dsimp only
  by_cases hh : Hostile s t j
  -- an enemy that can be seen: the first test lets it through
  · rw [if_neg (by
      obtain ⟨h₁, h₂, h₃, h₄⟩ := hh
      rintro (h | h | ⟨h, hp⟩ | h)
      · exact h h₁
      · exact h₂ h
      · rw [h₃ h] at hp
        cases hp
      · rw [h₄] at h
        cases h)]
    change (if (found s t best).range ≤ offsetX s t j ∨ offsetX s t j ≤ -(found s t best).range ∨
      (found s t best).range ≤ offsetY s t j ∨ offsetY s t j ≤ -(found s t best).range then found s t best else
      if (127 < turnsLeft s t ∨ bearing s t j < turnsLeft s t ∨ 256 - turnsLeft s t < bearing s t j) ∧
        distSq s t j % 2 ^ 32 < (found s t best).minRangeSq then
        ⟨(distSq s t j % 2 ^ 32).toNat.sqrt, distSq s t j % 2 ^ 32, side s t j⟩ else found s t best) = _
    rw [hkept, Int.toNat_natCast]
    by_cases hbox : |offsetX s t j| < (found s t best).range ∧ |offsetY s t j| < (found s t best).range
    -- inside the box the closest so far leaves
    · obtain ⟨hx, hy⟩ := hbox
      have hx' := abs_lt.1 hx
      have hy' := abs_lt.1 hy
      rw [if_neg (by omega)]
      by_cases harc : 127 < turnsLeft s t ∨ bearing s t j < turnsLeft s t ∨ 256 - turnsLeft s t < bearing s t j
      · have hr : Reachable s t j := ⟨hh, ⟨hx.trans_le hrange, hy.trans_le hrange⟩, harc⟩
        rw [if_pos hr]
        -- it is kept when it is nearer than the best one
        cases best with
        | none => exact if_pos ⟨harc, Int.ofNat_lt.2 hlt⟩
        | some c =>
          have hin : (scene s t).reach j < ((scene s t).kept c).sqrt := reach_lt_iff.2 ⟨hx, hy⟩
          by_cases hk : (scene s t).kept j < (scene s t).kept c
          · have hlook : (scene s t).look (some c) j = some j := if_pos ⟨hin, hk⟩
            rw [hlook]
            exact if_pos ⟨harc, Int.ofNat_lt.2 hk⟩
          · have hlook : (scene s t).look (some c) j = some c := if_neg fun h => hk h.2
            rw [hlook]
            exact if_neg fun h => hk (Int.ofNat_lt.1 h.2)
      · rw [if_neg (fun h => harc h.1), if_neg (fun h => harc h.2.2)]
    -- outside the box the loop goes on; a reachable ship there is farther than the best one
    · have hout : (found s t best).range ≤ offsetX s t j ∨ offsetX s t j ≤ -(found s t best).range ∨
          (found s t best).range ≤ offsetY s t j ∨ offsetY s t j ≤ -(found s t best).range := by
        rw [abs_lt, abs_lt] at hbox
        omega
      rw [if_pos hout]
      by_cases hr : Reachable s t j
      · rw [if_pos hr]
        cases best with
        | none => exact absurd hr.2.1 hbox
        | some c =>
          have hin : ¬ (scene s t).reach j < ((scene s t).kept c).sqrt := fun h => hbox (reach_lt_iff.1 h)
          have hlook : (scene s t).look (some c) j = some c := if_neg fun h => hin h.1
          rw [hlook]
      · rw [if_neg hr]
  -- a friend, a dead or an unseen ship is passed over
  · rw [if_pos, if_neg (fun h => hh h.1)]
    by_contra hc
    simp only [not_or] at hc
    obtain ⟨h₁, h₂, h₃, h₄⟩ := hc
    refine hh ⟨not_not.1 h₁, h₂, fun h => ?_, ?_⟩
    · by_contra hp
      exact h₃ ⟨h, by simpa using hp⟩
    · by_contra hp
      exact h₄ (by simpa using hp)

/-! ## The ship that is found -/

theorem foldl_found (l : List Slot) : ∀ best : Option Slot, l.foldl (tTrackOn s t) (found s t best) =
    found s t ((l.filter fun j => Reachable s t j).foldl (scene s t).look best) := by
  induction l with
  | nil => exact fun _ => rfl
  | cons j l ih =>
    intro best
    rw [List.foldl_cons, tTrackOn_found, ih, List.filter_cons]
    by_cases hr : Reachable s t j
    · rw [if_pos hr, if_pos (decide_eq_true hr), List.foldl_cons]
    · rw [if_neg hr, if_neg (by simpa using hr)]

/-- The torp turns towards the ship that is found. -/
theorem tTrack_eq (s : Server) (t : Torp) :
    tTrack s t = ((scene s t).seek (reachable s t)).elim t fun c => turnTo t (side s t c) := by
  unfold tTrack
  rw [show (⟨65535, 0xffffffff, 0⟩ : Track) = found s t none from rfl, foldl_found]
  dsimp only
  show (if (found s t ((scene s t).seek (reachable s t))).turn < 0 then _ else
    if 0 < (found s t ((scene s t).seek (reachable s t))).turn then _ else _) = _
  cases (scene s t).seek (reachable s t) with
  | none => rfl
  | some c =>
    show (if side s t c < 0 then _ else if 0 < side s t c then _ else _) = turnTo t (side s t c)
    unfold turnTo side
    split <;> rfl

theorem mem_reachable : j ∈ reachable s t ↔ Reachable s t j := by
  unfold reachable
  rw [List.mem_filter, decide_eq_true_iff]
  exact and_iff_right (List.mem_finRange j)

theorem pairwise_reachable (s : Server) (t : Torp) : (reachable s t).Pairwise (· < ·) :=
  (List.pairwise_lt_finRange maxPlayer).filter _

/-- As long as no square of a distance that the search computes overflows, the torp tracks the nearest ship within reach
exactly if there is none, or the ship that is chosen among those of least whole distance lies on the side of one that is
truly nearest. -/
theorem tracks_iff (h : (scene s t).Sheltered (reachable s t)) : Tracks s t ↔ (∀ j, ¬ Reachable s t j) ∨
    ∃ c j, (scene s t).Chosen (reachable s t) c ∧ Nearest s t j ∧ turnTo t (side s t c) = turnTo t (side s t j) := by
  unfold Tracks
  rw [tTrack_eq]
  rcases Scene.seek_spec (pairwise_reachable s t) h with ⟨hnil, hnone⟩ | ⟨c, hc, hchosen⟩
  · have hno : ∀ j, ¬ Reachable s t j := by
      intro j hj
      have := mem_reachable.2 hj
      rw [hnil] at this
      cases this
    rw [hnone]
    exact ⟨fun _ => .inl hno, fun _ => .inr ⟨hno, rfl⟩⟩
  · rw [hc]
    have hr : Reachable s t c := mem_reachable.1 hchosen.mem
    constructor
    · rintro (⟨j, hj, heq⟩ | ⟨hno, -⟩)
      · exact .inr ⟨c, j, hchosen, hj, heq⟩
      · exact absurd hr (hno c)
    · rintro (hno | ⟨c', j, hc', hj, heq⟩)
      · exact absurd hr (hno c)
      · exact .inl ⟨j, hj, hchosen.unique hc' ▸ heq⟩

/-! ## Ships that are missed -/

theorem not_tracks {c : Slot} (hc : (scene s t).seek (reachable s t) = some c) (hj : Reachable s t j)
    (hfar : ∀ k, Reachable s t k → k ≠ j → distSq s t j < distSq s t k)
    (hturn : turnTo t (side s t c) ≠ turnTo t (side s t j)) : ¬ Tracks s t := by
  rintro (⟨k, hk, heq⟩ | ⟨hno, -⟩)
  · rw [tTrack_eq, hc] at heq
    by_cases hkj : k = j
    · exact hturn (hkj ▸ heq)
    · have := hk.least j hj
      have := hfar k hk.reach hkj
      omega
  · exact hno j hj

/-- The directions of the offsets below, with a torp that heads straight up. -/
def headings (dx dy : Int) : UInt8 :=
  if dx = 25 ∧ dy = 999 then 255 else if dx = 46341 ∧ dy = 46341 then 224 else if dx = 700 ∧ dy = 5000 then 250 else 0

/-- Romulans in the slots 1 and 2, at these offsets from a torp of the Federation. -/
def duel (a b : Int × Int) : Server :=
  { (default : Server) with
    setup := { (default : Setup) with toDir := headings }
    mem :=
      { (default : Memory) with
        players := fun j =>
          let p := if j.val = 1 then a else b
          { (default : Player) with
            status := if j.val = 1 ∨ j.val = 2 then .palive else .pfree
            team := if j.val = 0 then fed else rom
            xInternal := spi (50000 - p.1)
            yInternal := spi (50000 - p.2) } } }

/-- A plasma torp with its whole fuse. -/
def plasma (dir : UInt8) : Torp :=
  { (default : Torp) with
    war := rom, team := fed, turns := 1, fuse := 30, dir := dir
    xInternal := spi 50000, yInternal := spi 50000 }

theorem tracks_iff_duel : Tracks (duel (25, 999) (0, 500)) (plasma 0) ↔
    (∀ j, ¬ Reachable (duel (25, 999) (0, 500)) (plasma 0) j) ∨
      ∃ c j, (scene (duel (25, 999) (0, 500)) (plasma 0)).Chosen (reachable (duel (25, 999) (0, 500)) (plasma 0)) c ∧
        Nearest (duel (25, 999) (0, 500)) (plasma 0) j ∧
          turnTo (plasma 0) (side (duel (25, 999) (0, 500)) (plasma 0) c) =
            turnTo (plasma 0) (side (duel (25, 999) (0, 500)) (plasma 0) j) := by
  refine tracks_iff fun a ha hf => ?_
  rw [show reachable (duel (25, 999) (0, 500)) (plasma 0) = [1, 2] by decide] at ha
  have hsmall : ∀ a ∈ ([1, 2] : List Slot), (distSq (duel (25, 999) (0, 500)) (plasma 0) a).toNat < 2 ^ 32 := by decide
  exact absurd (hsmall a ha) hf

/-- The nearer ship is straight ahead, as near in whole units as the one before it; or it is much nearer than one whose
squared distance overflows. The torp turns away from it. -/
theorem tracking_misses : ¬ Tracks (duel (25, 999) (0, 999)) (plasma 0) ∧
    ¬ Tracks (duel (46341, 46341) (700, 5000)) (plasma 240) := by
  constructor
  · refine not_tracks (c := 1) (j := 2) ?_ (by decide) (by decide) (by decide)
    rw [show reachable (duel (25, 999) (0, 999)) (plasma 0) = [1, 2] by decide]
    refine if_neg fun h => ?_
    have hsqrt : (998626 : Nat).sqrt < 1000 := Nat.sqrt_lt.2 (by decide)
    have hbox : 999 < (998626 : Nat).sqrt := h.1
    omega
  · refine not_tracks (c := 1) (j := 2) ?_ (by decide) (by decide) (by decide)
    rw [show reachable (duel (46341, 46341) (700, 5000)) (plasma 240) = [1, 2] by decide]
    refine if_neg fun h => ?_
    have hless : 25490000 < 9266 := h.2
    omega

end Netrek.Daemon
