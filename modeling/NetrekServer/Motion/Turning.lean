/-
A ship that turns comes nearer to the direction it wants by as many ticks as its turn rate has come
to, and never turns past it.
-/
import NetrekServer.Lib.Circle
import NetrekServer.Motion.Helm

namespace Netrek.Motion

open Netrek.Lib

/-! ## One call -/

/-- A ship under way, with a turn rate that is an `int` and a fraction of a tick left over. -/
structure Turns (h : Helm) : Prop where
  speed : h.speed ≠ 0
  turns : 0 ≤ h.turns ∧ h.turns < 2 ^ 31
  subdir : 0 ≤ h.subdir ∧ h.subdir < 1000

/-- The increment is a part of the turn rate. -/
theorem turnRate_bounds (newturn : Bool) {h : Helm} (ht : 0 ≤ h.turns) :
    0 ≤ turnRate newturn h ∧ turnRate newturn h ≤ h.turns := by
  have key (k : Int) (hk : 0 ≤ k) : 0 ≤ h.turns.tdiv k ∧ h.turns.tdiv k ≤ h.turns := by
    rw [Int.tdiv_eq_ediv_of_nonneg ht]
    exact ⟨Int.ediv_nonneg ht hk, Int.ediv_le_self _ ht⟩
  unfold turnRate
  split
  · exact key _ (mul_self_nonneg _)
  · apply key
    split
    · positivity
    · decide

/-- The numbers of the two directions, the lower one first. -/
theorem arc_sorted (h : Helm) {lo hi : Nat} (hlo : lo = if h.desdir < h.dir then h.desdir.toNat else h.dir.toNat)
    (hhi : hi = if h.desdir < h.dir then h.dir.toNat else h.desdir.toNat) :
    arc h.dir h.desdir = min (hi - lo) (256 - hi + lo) := by
  subst hlo hhi
  by_cases hlt : h.desdir < h.dir
  · rw [if_pos hlt, if_pos hlt]
    exact arc_eq (.inr ⟨rfl, rfl⟩) (UInt8.lt_iff_toNat_lt.1 hlt).le
  · rw [if_neg hlt, if_neg hlt]
    apply arc_eq (.inl ⟨rfl, rfl⟩)
    rw [UInt8.lt_iff_toNat_lt] at hlt
    omega

/-- A call shortens the arc by the ticks that are full, or closes it, and keeps what is left of a tick. -/
theorem changedir_spec (newturn : Bool) {h : Helm} (hh : Turns h) :
    arc (changedir newturn h).dir h.desdir = arc h.dir h.desdir - ((h.subdir + turnRate newturn h) / 1000).toNat ∧
      changedir newturn h =
        { h with dir := (changedir newturn h).dir, subdir := (h.subdir + turnRate newturn h) % 1000 } := by
  have hr := turnRate_bounds newturn hh.turns.1
  have hs := hh.subdir
  have hi := hh.turns.2
  generalize hsum : h.subdir + turnRate newturn h = sum
  generalize ht : (sum / 1000).toNat = t
  have hticks : (sum.tdiv 1000 % 2 ^ 32).toNat = t := by
    rw [Int.tdiv_eq_ediv_of_nonneg (by omega)]
    omega
  unfold changedir
  simp only [if_neg hh.speed, hsum, hticks]
  by_cases h0 : t = 0
  · rw [if_pos h0]
    refine ⟨by rw [h0, Nat.sub_zero], ?_⟩
    show { h with subdir := sum } = { h with subdir := sum % 1000 }
    congr 1
    omega
  · rw [if_neg h0, Int.tmod_eq_emod_of_nonneg (by omega)]
    refine ⟨?_, rfl⟩
    have harc := arc_sorted h rfl rfl
    generalize (if h.desdir < h.dir then h.desdir.toNat else h.dir.toNat) = lo at harc ⊢
    generalize (if h.desdir < h.dir then h.dir.toNat else h.desdir.toNat) = hi at harc ⊢
    show arc (if hi - lo < t ∨ 256 - hi + lo < t then h.desdir else _) h.desdir = _
    by_cases hsnap : hi - lo < t ∨ 256 - hi + lo < t
    -- more ticks than one of the ways round takes
    · rw [if_pos hsnap, arc_eq_zero.2 rfl]
      omega
    · rw [if_neg hsnap]
      have hle : t ≤ arc h.dir h.desdir := by omega
      split
      · exact arc_add ‹_› hle
      · exact arc_sub ‹_› hle

/-! ## Many calls -/

/-- What holds after `n` calls of a ship that was `h₀`: the arc, and, as long as it is not closed, the
fraction of a tick. -/
structure Turned (newturn : Bool) (h₀ : Helm) (n : Nat) (h : Helm) : Prop where
  arc : arc h.dir h₀.desdir = arc h₀.dir h₀.desdir - ((h₀.subdir + n * turnRate newturn h₀) / 1000).toNat
  rest : h = { h₀ with dir := h.dir, subdir := h.subdir }
  subdir : h.dir ≠ h₀.desdir → h.subdir = (h₀.subdir + n * turnRate newturn h₀) % 1000

theorem turned_zero {newturn : Bool} {h₀ : Helm} (hh : Turns h₀) : Turned newturn h₀ 0 h₀ := by
  have hs := hh.subdir
  constructor
  · simp only [Nat.cast_zero, zero_mul, add_zero]
    omega
  · rfl
  · intro _
    simp only [Nat.cast_zero, zero_mul, add_zero]
    omega

/-- One frame more. -/
theorem Turned.turnHelm {newturn : Bool} {h₀ h : Helm} {n : Nat} (hh : Turns h₀) (h' : Turned newturn h₀ n h) :
    Turned newturn h₀ (n + 1) (turnHelm newturn h) := by
  obtain ⟨harc, hrest, hsub⟩ := h'
  have hr := (turnRate_bounds newturn hh.turns.1).1
  have hdes : h.desdir = h₀.desdir := by rw [hrest]
  have hrate : turnRate newturn h = turnRate newturn h₀ := by rw [hrest]; rfl
  have hs := hh.subdir
  have hmul : ((n + 1 : Nat) : Int) * turnRate newturn h₀ = n * turnRate newturn h₀ + turnRate newturn h₀ := by
    push_cast
    ring
  have hnr : 0 ≤ (n : Int) * turnRate newturn h₀ := mul_nonneg (Int.natCast_nonneg n) hr
  rw [← hdes] at hsub
  unfold Motion.turnHelm
  by_cases hd : h.dir = h.desdir
  -- no call is made, and the arc is closed for more ticks too
  · rw [if_neg (not_not_intro hd)]
    have h0 : Lib.arc h.dir h₀.desdir = 0 := arc_eq_zero.2 (hd.trans hdes)
    refine ⟨?_, hrest, fun hne => absurd (hd.trans hdes) hne⟩
    rw [hmul]
    omega
  · rw [if_pos hd]
    have hsub := hsub hd
    have hturns : Turns h := by
      constructor
      · rw [hrest]; exact hh.speed
      · rw [hrest]; exact hh.turns
      · rw [hsub]; omega
    obtain ⟨ha, he⟩ := changedir_spec newturn hturns
    rw [hrate, hsub] at ha he
    constructor
    · rw [← hdes, ha, hdes, harc, hmul]
      omega
    · rw [he, hrest]
    · intro _
      rw [he, hmul]
      show _ % _ = _
      omega

/-- After any number of calls the arc is what it was less the ticks that the turn rate has come to, or closed. -/
theorem turn_never_overshoots (newturn : Bool) {h : Helm} (hh : Turns h) (n : Nat) :
    arc ((turnHelm newturn)^[n] h).dir h.desdir =
        arc h.dir h.desdir - ((h.subdir + n * turnRate newturn h) / 1000).toNat ∧
      arc ((turnHelm newturn)^[n + 1] h).dir h.desdir ≤ arc ((turnHelm newturn)^[n] h).dir h.desdir ∧
      (arc ((turnHelm newturn)^[n] h).dir h.desdir = 0 →
        ∀ k, ((turnHelm newturn)^[n + k] h).dir = h.desdir ∧ ((turnHelm newturn)^[n + k] h).desdir = h.desdir) := by
  have hturned : ∀ n, Turned newturn h n ((turnHelm newturn)^[n] h) := by
    intro n
    induction n with
    | zero => exact turned_zero hh
    | succ n ih =>
      rw [Function.iterate_succ_apply']
      exact ih.turnHelm hh
  have hr := (turnRate_bounds newturn hh.turns.1).1
  -- the ticks never become less
  have hmono : ∀ n k : Nat, (h.subdir + n * turnRate newturn h) / 1000 ≤ (h.subdir + (n + k : Nat) * turnRate newturn h) / 1000 := by
    intro n k
    apply Int.ediv_le_ediv (by decide)
    have : 0 ≤ (k : Int) * turnRate newturn h := mul_nonneg (Int.natCast_nonneg k) hr
    push_cast
    linarith
  refine ⟨(hturned n).arc, ?_, ?_⟩
  · rw [(hturned n).arc, (hturned (n + 1)).arc]
    have := hmono n 1
    omega
  · intro h0 k
    rw [(hturned n).arc] at h0
    have := hmono n k
    constructor
    · apply arc_eq_zero.1
      rw [(hturned (n + k)).arc]
      omega
    · rw [(hturned (n + k)).rest]

/-- A ship that turns about at half a circle. -/
theorem turn_never_overshoots_about :
    arc ((turnHelm false)^[3] { (default : Helm) with dir := 128, speed := 2, turns := 170000 }).dir 0 = 1 := by
  have h := turn_never_overshoots false (h := { (default : Helm) with dir := 128, speed := 2, turns := 170000 })
    ⟨by decide, by decide, by decide⟩ 3
  exact h.1

end Netrek.Motion
