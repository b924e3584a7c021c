/-
What `phaser` of `ntserv/phaser.c` hits. Both loops keep the square of the least distance, and pass over
what lies outside the box of that distance, rounded. A nearer target on the side of the box is passed
over as well, if the one that the box is of comes first.
-/
import NetrekServer.Lib.Boxed
import NetrekServer.Weapons.Phaser

namespace Netrek.Weapons

open Daemon Lib

/-! ## Any line -/

/-- Whether the line of a phaser passes close enough to a ship, or to a plasma torp, at an offset. -/
structure Line where
  ship : Int → Int → Bool
  plasma : Int → Int → Bool

/-- The arc of a phaser of the given `course`. -/
def arc (c : Setup) (course : UInt8) (zap : Int) (overlap : Bool) (a b : Int) : Bool :=
  let C := c.cos course * 10 * (phaseDist : ℚ)
  let D := c.sin course * 10 * (phaseDist : ℚ)
  let s := (a * C + b * D) / (10 * (phaseDist : ℚ) * (10 * (phaseDist : ℚ)))
  let t := if s < 0 then 0 else s
  decide (overlap = true ∨ 0 ≤ s) && (distWithin (truncate (C * t) - a) (truncate (D * t) - b) zap).isSome

variable (line : Line) (s : Server) (me : Slot)

/-- Where something is, from the ship. -/
def offset : Hit → Int × Int
  | .ship j => ((s.player j).x - (s.player me).x, (s.player j).y - (s.player me).y)
  | .plasma k => ((s.torp k).x - (s.player me).x, (s.torp k).y - (s.player me).y)

/-- A live ship of another player that is not at peace nor idle; a plasma torp of another player that is not
at peace, or any if plasma torps are played back. -/
def Fit : Hit → Prop
  | .ship j => (s.player j).status = .palive ∧ j ≠ me ∧
      ((s.player j).war.has (s.player me).team || (s.player me).war.has (s.player j).team) = true ∧ s.isIdle j = false
  | .plasma k => k ∈ plasmaSlots ∧ (s.torp k).status = .tmove ∧ (s.torp k).owner ≠ me ∧
      (s.setup.pingpongPlasma || (s.torp k).war.has (s.player me).team ||
        (s.player me).war.has (s.torp k).team) = true

instance : DecidablePred (Fit s me)
  | .ship _ => inferInstanceAs (Decidable (_ ∧ _))
  | .plasma _ => inferInstanceAs (Decidable (_ ∧ _))

def Line.passes : Hit → Bool
  | .ship j => line.ship (offset s me (.ship j)).1 (offset s me (.ship j)).2
  | .plasma k => line.plasma (offset s me (.plasma k)).1 (offset s me (.plasma k)).2

/-- All it looks at, in order. -/
def hits : List Hit := (List.finRange maxPlayer).map .ship ++ plasmaSlots.map .plasma

/-- The square of the distance. -/
def distSq (h : Hit) : Int := (offset s me h).1 * (offset s me h).1 + (offset s me h).2 * (offset s me h).2

/-- The larger of the offsets. -/
def reach (h : Hit) : Int := max |(offset s me h).1| |(offset s me h).2|

/-- The phaser could hit it, if nothing else were there. -/
def Target (h : Hit) : Prop :=
  (Fit s me h ∧ line.passes s me h = true) ∧ 0 ≤ phaserRange (s.player me) ∧
    distSq s me h ≤ phaserRange (s.player me) * phaserRange (s.player me)

instance : DecidablePred (Target line s me) := fun _ => inferInstanceAs (Decidable (_ ∧ _))

def Hit.isShip : Hit → Prop
  | .ship _ => True
  | .plasma _ => False

/-- A nearest target; a plasma torp only if every ship is farther. -/
structure Nearest (h : Hit) : Prop where
  target : Target line s me h
  least : ∀ v, Target line s me v → distSq s me h < distSq s me v ∨
    distSq s me h = distSq s me v ∧ (v.isShip → h.isShip)

theorem holder_lt {k : Nat} (h : k < firstPlasma) : k / maxTorp < maxPlayer := Nat.div_lt_of_lt_mul h

/-- Where a torp is when the players change slots: it goes with its slots. -/
def movedTorp (π : Equiv.Perm Slot) (k : Nat) : Nat :=
  if h : k < firstPlasma then firstTorpOf (π ⟨k / maxTorp, holder_lt h⟩) + k % maxTorp
  else if h : k - firstPlasma < maxPlayer then firstPlasmaOf (π ⟨k - firstPlasma, h⟩)
  else k

/-- The players change slots, with their phasers and torps. -/
def reslot (π : Equiv.Perm Slot) : Server :=
  { s with mem :=
    { s.mem with
      players := fun j => s.mem.players (π.symm j)
      phasers := fun j => s.mem.phasers (π.symm j)
      torps := fun k =>
        let t := s.mem.torps (movedTorp π.symm k)
        { t with owner := π t.owner, whodet := t.whodet.map π } } }

def Hit.moved (π : Equiv.Perm Slot) : Hit → Hit
  | .ship j => .ship (π j)
  | .plasma k => .plasma (movedTorp π k)

theorem nearbySqrt_le {a b : Int} (h : a ≤ b) : nearbySqrt (a : ℚ) ≤ nearbySqrt (b : ℚ) := by
  have hle : a.toNat.sqrt ≤ b.toNat.sqrt := Nat.sqrt_le_sqrt (Int.toNat_le_toNat h)
  have hq : (a : ℚ) ≤ b := by exact_mod_cast h
  unfold nearbySqrt
  simp only [Rat.floor_intCast]
  rcases Nat.lt_or_eq_of_le hle with hlt | heq
  · split <;> split <;> omega
  · rw [heq]
    split
    · next hup => rw [if_pos (hup.trans_le hq)]
    · split <;> omega

theorem le_nearbySqrt {m d : Int} (hm : 0 ≤ m) (h : m * m ≤ d) : m ≤ nearbySqrt (d : ℚ) := by
  have hsqrt : m.toNat ≤ d.toNat.sqrt := by
    rw [Nat.le_sqrt, ← Int.toNat_mul hm hm]
    exact Int.toNat_le_toNat h
  unfold nearbySqrt
  simp only [Rat.floor_intCast]
  split <;> omega

theorem reach_nonneg (h : Hit) : 0 ≤ reach s me h := le_max_of_le_left (abs_nonneg _)

theorem reach_sq_le (h : Hit) : reach s me h * reach s me h ≤ distSq s me h := by
  unfold reach distSq
  have hx := abs_mul_abs_self (offset s me h).1
  have hy := abs_mul_abs_self (offset s me h).2
  rcases max_choice |(offset s me h).1| |(offset s me h).2| with hmax | hmax <;> rw [hmax]
  · rw [hx]
    exact le_add_of_nonneg_right (mul_self_nonneg _)
  · rw [hy]
    exact le_add_of_nonneg_left (mul_self_nonneg _)

/-- Ships and plasma torps, as the phaser sees them. -/
def field : Boxed Hit Int where
  sq := distSq s me
  rounded h := nearbySqrt (distSq s me h : ℚ)
  reach := reach s me
  rounded_le _ _ h := nearbySqrt_le h
  reach_le h := le_nearbySqrt (reach_nonneg s me h) (reach_sq_le s me h)

/-- What the loops keep of the target they have found. -/
def found : Option Hit → Aim Hit
  | none => ⟨phaserRange (s.player me) + 1, phaserRange (s.player me) * phaserRange (s.player me) + 1, none⟩
  | some c => .take c (offset s me c).1 (offset s me c).2

variable {line s me}

theorem plasmaSlots_eq : plasmaSlots = (List.finRange maxPlayer).map firstPlasmaOf := rfl

theorem mem_plasmaSlots {k : Nat} : k ∈ plasmaSlots ↔ ∃ i, firstPlasmaOf i = k := by
  simp [plasmaSlots_eq]

theorem movedTorp_plasma (π : Equiv.Perm Slot) (i : Slot) : movedTorp π (firstPlasmaOf i) = firstPlasmaOf (π i) := by
  have hi : firstPlasmaOf i - firstPlasma = i := by
    show firstPlasma + maxPlasma * i - firstPlasma = i
    rw [Nat.add_sub_cancel_left]
    exact Nat.one_mul _
  have hge : ¬ firstPlasmaOf i < firstPlasma := not_lt.2 (Nat.le_add_right _ _)
  unfold movedTorp
  rw [dif_neg hge, dif_pos (hi ▸ i.isLt)]
  exact congrArg (fun j => firstPlasmaOf (π j)) (Fin.ext hi)

/-- The torps of a player move with his slot. -/
theorem movedTorp_torp (π : Equiv.Perm Slot) (j : Slot) {n : Nat} (hn : n < maxTorp) :
    movedTorp π (firstTorpOf j + n) = firstTorpOf (π j) + n := by
  have hdiv : (firstTorpOf j + n) / maxTorp = j := by
    show (8 * j.val + n) / 8 = j
    have : n < 8 := hn
    omega
  have hmod : (firstTorpOf j + n) % maxTorp = n := by
    show (8 * j.val + n) % 8 = n
    have : n < 8 := hn
    omega
  have hlt : firstTorpOf j + n < firstPlasma := by
    show 8 * j.val + n < 8 * 32
    have h8 : n < 8 := hn
    have h32 : j.val < 32 := j.isLt
    omega
  unfold movedTorp
  rw [dif_pos hlt, hmod]
  exact congrArg (fun j => firstTorpOf (π j) + n) (Fin.ext hdiv)

/-- Every torp comes back. -/
theorem movedTorp_symm (π : Equiv.Perm Slot) (k : Nat) : movedTorp π.symm (movedTorp π k) = k := by
  by_cases htorp : k < firstPlasma
  · obtain ⟨j, n, hn, rfl⟩ : ∃ (j : Slot) (n : Nat), n < maxTorp ∧ firstTorpOf j + n = k :=
      ⟨⟨k / maxTorp, holder_lt htorp⟩, k % maxTorp, Nat.mod_lt k (by decide), Nat.div_add_mod k maxTorp⟩
    rw [movedTorp_torp π j hn, movedTorp_torp π.symm (π j) hn, π.symm_apply_apply]
  · by_cases hplasma : k - firstPlasma < maxPlayer
    · obtain ⟨i, rfl⟩ : ∃ i, firstPlasmaOf i = k := by
        refine ⟨⟨k - firstPlasma, hplasma⟩, ?_⟩
        show firstPlasma + 1 * (k - firstPlasma) = k
        omega
      rw [movedTorp_plasma, movedTorp_plasma, π.symm_apply_apply]
    · have hfix (π : Equiv.Perm Slot) : movedTorp π k = k := by
        unfold movedTorp
        rw [dif_neg htorp, dif_neg hplasma]
      rw [hfix, hfix]

@[simp] theorem moved_symm (π : Equiv.Perm Slot) (h : Hit) : (h.moved π).moved π.symm = h := by
  cases h with
  | ship j => exact congrArg Hit.ship (π.symm_apply_apply j)
  | plasma k => exact congrArg Hit.plasma (movedTorp_symm π k)

@[simp] theorem symm_moved (π : Equiv.Perm Slot) (h : Hit) : (h.moved π.symm).moved π = h := moved_symm π.symm h

@[simp] theorem isShip_moved (π : Equiv.Perm Slot) (h : Hit) : (h.moved π).isShip ↔ h.isShip := by cases h <;> rfl

variable (π : Equiv.Perm Slot)

@[simp] theorem player_reslot (j : Slot) : (reslot s π).player (π j) = s.player j :=
  congrArg s.mem.players (π.symm_apply_apply j)

theorem torp_reslot (k : Nat) : (reslot s π).torp (movedTorp π k) =
    { s.torp k with owner := π (s.torp k).owner, whodet := (s.torp k).whodet.map π } := by
  unfold reslot Server.torp
  dsimp only
  rw [movedTorp_symm]

theorem isIdle_reslot (j : Slot) : (reslot s π).isIdle (π j) = s.isIdle j := by
  unfold Server.isIdle
  rw [player_reslot]
  rfl

theorem offset_moved (h : Hit) : offset (reslot s π) (π me) (h.moved π) = offset s me h := by
  cases h with
  | ship j =>
    unfold offset Hit.moved
    simp only [player_reslot]
  | plasma k =>
    unfold offset Hit.moved
    simp only [player_reslot, torp_reslot]

theorem distSq_moved (h : Hit) : distSq (reslot s π) (π me) (h.moved π) = distSq s me h := by
  unfold distSq
  rw [offset_moved]

theorem reach_moved (h : Hit) : reach (reslot s π) (π me) (h.moved π) = reach s me h := by
  unfold reach
  rw [offset_moved]

/-- What may be hit does not depend on the slots. -/
theorem fit_moved (h : Hit) : Fit (reslot s π) (π me) (h.moved π) ↔ Fit s me h := by
  cases h with
  | ship j =>
    unfold Fit Hit.moved
    simp only [player_reslot, isIdle_reslot, ne_eq, π.injective.eq_iff]
  | plasma k =>
    have hk : movedTorp π k ∈ plasmaSlots ↔ k ∈ plasmaSlots := by
      rw [mem_plasmaSlots, mem_plasmaSlots]
      constructor
      · rintro ⟨i, hi⟩
        refine ⟨π.symm i, ?_⟩
        rw [← movedTorp_plasma, hi, movedTorp_symm]
      · rintro ⟨i, rfl⟩
        exact ⟨π i, (movedTorp_plasma π i).symm⟩
    unfold Fit Hit.moved
    simp only [player_reslot, torp_reslot, hk, ne_eq, π.injective.eq_iff]
    rfl

theorem passes_moved (h : Hit) : line.passes (reslot s π) (π me) (h.moved π) = line.passes s me h := by
  cases h with
  | ship j =>
    show line.ship (offset _ _ (Hit.moved π (.ship j))).1 (offset _ _ (Hit.moved π (.ship j))).2 = _
    rw [offset_moved]
    rfl
  | plasma k =>
    show line.plasma (offset _ _ (Hit.moved π (.plasma k))).1 (offset _ _ (Hit.moved π (.plasma k))).2 = _
    rw [offset_moved]
    rfl

/-- A target is one in any slot. -/
theorem target_moved (h : Hit) : Target line (reslot s π) (π me) (h.moved π) ↔ Target line s me h := by
  unfold Target
  rw [fit_moved, passes_moved, distSq_moved, player_reslot]

theorem target_moved_symm (h : Hit) : Target line s me (h.moved π.symm) ↔ Target line (reslot s π) (π me) h := by
  rw [← target_moved π, symm_moved]

theorem distSq_moved_symm (h : Hit) : distSq s me (h.moved π.symm) = distSq (reslot s π) (π me) h := by
  rw [← distSq_moved π, symm_moved]

/-- A nearest target is one in any slot. -/
theorem nearest_moved (h : Hit) : Nearest line (reslot s π) (π me) (h.moved π) ↔ Nearest line s me h := by
  constructor
  · rintro ⟨ht, hleast⟩
    refine ⟨(target_moved π h).1 ht, fun v hv => ?_⟩
    have hv := hleast (v.moved π) ((target_moved π v).2 hv)
    rwa [distSq_moved, distSq_moved, isShip_moved, isShip_moved] at hv
  · rintro ⟨ht, hleast⟩
    refine ⟨(target_moved π h).2 ht, fun v hv => ?_⟩
    have hv := hleast (v.moved π.symm) ((target_moved_symm π v).2 hv)
    rw [distSq_moved_symm, isShip_moved] at hv
    rwa [distSq_moved, isShip_moved]

/-! ## What hides a target -/

variable (line s me)

/-- No farther target that may come before it has a box with this one outside or on its side: no ship and,
for a plasma torp, no plasma torp either. -/
def Unhidden (n : Hit) : Prop :=
  ∀ v, Target line s me v → (n.isShip → v.isShip) → distSq s me n < distSq s me v →
    reach s me n < nearbySqrt (distSq s me v : ℚ)

variable {line s me}

theorem unhidden_moved {n : Hit} (h : Unhidden line s me n) : Unhidden line (reslot s π) (π me) (n.moved π) := by
  intro v hv hship hlt
  rw [distSq_moved, ← distSq_moved_symm] at hlt
  rw [reach_moved, ← distSq_moved_symm]
  exact h (v.moved π.symm) ((target_moved_symm π v).2 hv) (by rwa [isShip_moved, ← isShip_moved π n]) hlt

/-- There is no target, or a nearest one is not hidden. -/
def Plain (line : Line) (s : Server) (me : Slot) : Prop :=
  (∀ h, ¬ Target line s me h) ∨ ∃ n, Nearest line s me n ∧ Unhidden line s me n

theorem Plain.moved (h : Plain line s me) : Plain line (reslot s π) (π me) := by
  rcases h with hnone | ⟨n, hn, hun⟩
  · exact .inl fun v hv => hnone _ ((target_moved_symm π v).2 hv)
  · exact .inr ⟨n.moved π, (nearest_moved π n).2 hn, unhidden_moved π hun⟩

deriving instance DecidableEq for Hit

end Netrek.Weapons
