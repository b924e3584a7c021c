/-
With `wrap_galaxy` off the walls keep a ship in its box: a ship that is in it is in it after every
frame, and one that hits a side flies away from it afterwards, or along it as before.
-/
import Mathlib.Tactic.Linarith
import Mathlib.Tactic.Positivity
import NetrekServer.Lib.Run
import NetrekServer.Motion.Helm
import NetrekServer.Truncate

namespace Netrek.Motion

open Netrek.Lib

/-! ## One axis -/

/-- A coordinate folded back at the sides. -/
def fold (lo hi x : Int) : Int := if x < lo then 2 * lo - x else if hi < x then 2 * hi - x else x

/-- The coordinate is not between the sides. -/
def Outside (lo hi x : Int) : Prop := x < lo ∨ hi < x

theorem fold_inside {lo hi x : Int} (h : ¬ Outside lo hi x) : fold lo hi x = x := by
  unfold Outside at h
  unfold fold
  rw [if_neg (by omega), if_neg (by omega)]

/-- A move by `q` from inside the sides, which are twice as far apart as the longest move. -/
structure Step (lo hi x : Int) (q t : ℚ) : Prop where
  lower : lo ≤ x
  upper : x ≤ hi
  length : |q| ≤ t
  wide : 2 * t ≤ (hi - lo : Int)

theorem Step.hit_lower {lo hi x : Int} {q t : ℚ} (h : Step lo hi x q t) (hx : truncate (x + q) < lo) : q < 0 := by
  by_contra hq
  have := le_truncate (x := x) (q := x + q) (by linarith)
  have := h.lower
  omega

theorem Step.hit_upper {lo hi x : Int} {q t : ℚ} (h : Step lo hi x q t) (hx : hi < truncate (x + q)) : 0 < q := by
  by_contra hq
  have := truncate_le (x := x) (q := x + q) (by linarith)
  have := h.upper
  omega

/-- Folded back at a side, the coordinate does not reach the other one. -/
theorem Step.fold_mem {lo hi x : Int} {q t : ℚ} (h : Step lo hi x q t) :
    lo ≤ fold lo hi (truncate (x + q)) ∧ fold lo hi (truncate (x + q)) ≤ hi := by
  obtain ⟨hlo, hhi, hlen, hwide⟩ := h
  obtain ⟨hq, hq'⟩ := abs_le.1 hlen
  obtain ⟨hn, hn'⟩ := truncate_near (x + q)
  generalize truncate (x + q) = x' at hn hn'
  have hlo' : (lo : ℚ) ≤ x := Int.cast_le.2 hlo
  have hhi' : (x : ℚ) ≤ hi := Int.cast_le.2 hhi
  push_cast at hwide
  unfold fold
  split
  · refine ⟨by omega, ?_⟩
    by_contra hfar
    have hfar : (hi : ℚ) + 1 ≤ 2 * lo - x' := by exact_mod_cast (by omega : hi + 1 ≤ 2 * lo - x')
    linarith
  split
  · refine ⟨?_, by omega⟩
    by_contra hfar
    have hfar : (2 : ℚ) * hi - x' + 1 ≤ lo := by exact_mod_cast (by omega : 2 * hi - x' + 1 ≤ lo)
    linarith
  · omega

/-! ## Directions -/

/-- The tables have the signs of cosine and sine between the axes and where these are not 0. -/
structure Signed (c : Setup) : Prop where
  cos_pos : ∀ d : UInt8, 0 < d.toNat → d.toNat < 128 → 0 < c.cos d
  cos_neg : ∀ d : UInt8, 128 < d.toNat → c.cos d < 0
  sin_pos : ∀ d : UInt8, 64 < d.toNat → d.toNat < 192 → 0 < c.sin d
  sin_neg : ∀ d : UInt8, d.toNat < 64 ∨ 192 < d.toNat → c.sin d < 0
  cos_le : ∀ d, |c.cos d| ≤ 1
  sin_le : ∀ d, |c.sin d| ≤ 1

/-- A direction along the left and the right side. -/
def Vertical (d : UInt8) : Prop := d = 0 ∨ d = 128

/-- A direction along the upper and the lower side. -/
def Horizontal (d : UInt8) : Prop := d = 64 ∨ d = 192

theorem vertical_iff {d : UInt8} : Vertical d ↔ d.toNat = 0 ∨ d.toNat = 128 := by
  unfold Vertical
  rw [← UInt8.toNat_inj, ← UInt8.toNat_inj]
  rfl

theorem horizontal_iff {d : UInt8} : Horizontal d ↔ d.toNat = 64 ∨ d.toNat = 192 := by
  unfold Horizontal
  rw [← UInt8.toNat_inj, ← UInt8.toNat_inj]
  rfl

/-- The mirror images of a direction at a vertical side, and at a horizontal one. -/
def mirrorX (d : UInt8) : UInt8 := 0 - d
def mirrorY (d : UInt8) : UInt8 := 128 - d

theorem toNat_mirrorX (d : UInt8) : (mirrorX d).toNat = (256 - d.toNat) % 256 := by
  unfold mirrorX
  rw [UInt8.toNat_sub]
  rfl

theorem toNat_mirrorY (d : UInt8) : (mirrorY d).toNat = (384 - d.toNat) % 256 := by
  unfold mirrorY
  rw [UInt8.toNat_sub]
  show (256 - d.toNat + 128) % 256 = _
  have := d.toNat_lt
  omega

/-- The special cases on the axis say the same as the rest. -/
theorem bounce_eq (toward back d : UInt8) : bounce toward back d = back - (d - toward) := by
  unfold bounce
  split
  · subst_vars
    simp
  · rfl

theorem bounce_left (d : UInt8) : bounce 192 64 d = mirrorX d := by
  rw [bounce_eq, ← UInt8.toNat_inj, toNat_mirrorX, UInt8.toNat_sub, UInt8.toNat_sub]
  have := d.toNat_lt
  show (256 - (256 - 192 + d.toNat) % 256 + 64) % 256 = _
  omega

theorem bounce_right (d : UInt8) : bounce 64 192 d = mirrorX d := by
  rw [bounce_eq, ← UInt8.toNat_inj, toNat_mirrorX, UInt8.toNat_sub, UInt8.toNat_sub]
  have := d.toNat_lt
  show (256 - (256 - 64 + d.toNat) % 256 + 192) % 256 = _
  omega

theorem bounce_top (d : UInt8) : bounce 0 128 d = mirrorY d := by
  rw [bounce_eq, ← UInt8.toNat_inj, toNat_mirrorY, UInt8.toNat_sub, UInt8.toNat_sub]
  have := d.toNat_lt
  show (256 - (256 - 0 + d.toNat) % 256 + 128) % 256 = _
  omega

theorem bounce_bottom (d : UInt8) : bounce 128 0 d = mirrorY d := by
  rw [bounce_eq, ← UInt8.toNat_inj, toNat_mirrorY, UInt8.toNat_sub, UInt8.toNat_sub]
  have := d.toNat_lt
  show (256 - (256 - 128 + d.toNat) % 256 + 0) % 256 = _
  omega

/-- Two components of motion go the same way. -/
def SameWay (a b : ℚ) : Prop := (0 < a ↔ 0 < b) ∧ (a < 0 ↔ b < 0)

theorem SameWay.refl (a : ℚ) : SameWay a a := ⟨Iff.rfl, Iff.rfl⟩

theorem SameWay.of_pos {a b : ℚ} (ha : 0 < a) (hb : 0 < b) : SameWay a b := ⟨iff_of_true ha hb, iff_of_false ha.not_gt hb.not_gt⟩

theorem SameWay.of_neg {a b : ℚ} (ha : a < 0) (hb : b < 0) : SameWay a b := ⟨iff_of_false ha.not_gt hb.not_gt, iff_of_true ha hb⟩

/-- Two components of motion go opposite ways. -/
def OtherWay (a b : ℚ) : Prop := (0 < a ↔ b < 0) ∧ (a < 0 ↔ 0 < b)

/-- The mirror image at a vertical side goes the other way across it. -/
theorem Signed.cos_mirrorX {c : Setup} (hc : Signed c) {d : UInt8} (hd : ¬ Vertical d) :
    OtherWay (c.cos d) (c.cos (mirrorX d)) := by
  rw [vertical_iff] at hd
  have hlt := d.toNat_lt
  by_cases h : d.toNat < 128
  · have hp := hc.cos_pos d (by omega) h
    have hn : c.cos (mirrorX d) < 0 := hc.cos_neg _ (by rw [toNat_mirrorX]; omega)
    exact ⟨iff_of_true hp hn, iff_of_false hp.not_gt hn.not_gt⟩
  · have hn := hc.cos_neg d (by omega)
    have hp : 0 < c.cos (mirrorX d) := hc.cos_pos _ (by rw [toNat_mirrorX]; omega) (by rw [toNat_mirrorX]; omega)
    exact ⟨iff_of_false hn.not_gt hp.not_gt, iff_of_true hn hp⟩

theorem Signed.sin_mirrorY {c : Setup} (hc : Signed c) {d : UInt8} (hd : ¬ Horizontal d) :
    OtherWay (c.sin d) (c.sin (mirrorY d)) := by
  rw [horizontal_iff] at hd
  have hlt := d.toNat_lt
  by_cases h : 64 < d.toNat ∧ d.toNat < 192
  · have hp := hc.sin_pos d h.1 h.2
    have hn : c.sin (mirrorY d) < 0 := hc.sin_neg _ (by rw [toNat_mirrorY]; omega)
    exact ⟨iff_of_true hp hn, iff_of_false hp.not_gt hn.not_gt⟩
  · have hn := hc.sin_neg d (by omega)
    have hp : 0 < c.sin (mirrorY d) := hc.sin_pos _ (by rw [toNat_mirrorY]; omega) (by rw [toNat_mirrorY]; omega)
    exact ⟨iff_of_false hn.not_gt hp.not_gt, iff_of_true hn hp⟩

/-- It goes the same way along it. -/
theorem Signed.sin_mirrorX {c : Setup} (hc : Signed c) {d : UInt8} (hd : ¬ Horizontal d) :
    SameWay (c.sin d) (c.sin (mirrorX d)) := by
  rw [horizontal_iff] at hd
  have hlt := d.toNat_lt
  by_cases h : 64 < d.toNat ∧ d.toNat < 192
  · apply SameWay.of_pos (hc.sin_pos d h.1 h.2)
    apply hc.sin_pos <;> rw [toNat_mirrorX] <;> omega
  · apply SameWay.of_neg (hc.sin_neg d (by omega))
    apply hc.sin_neg
    rw [toNat_mirrorX]
    omega

theorem Signed.cos_mirrorY {c : Setup} (hc : Signed c) {d : UInt8} (hd : ¬ Vertical d) :
    SameWay (c.cos d) (c.cos (mirrorY d)) := by
  rw [vertical_iff] at hd
  have hlt := d.toNat_lt
  by_cases h : d.toNat < 128
  · apply SameWay.of_pos (hc.cos_pos d (by omega) h)
    apply hc.cos_pos <;> rw [toNat_mirrorY] <;> omega
  · apply SameWay.of_neg (hc.cos_neg d (by omega))
    apply hc.cos_neg
    rw [toNat_mirrorY]
    omega

/-- A direction along a side stays one in a mirror. -/
theorem vertical_mirror {d : UInt8} : (Vertical (mirrorX d) ↔ Vertical d) ∧ (Vertical (mirrorY d) ↔ Vertical d) := by
  simp only [vertical_iff, toNat_mirrorX, toNat_mirrorY]
  have := d.toNat_lt
  omega

theorem horizontal_mirror {d : UInt8} : (Horizontal (mirrorX d) ↔ Horizontal d) ∧ (Horizontal (mirrorY d) ↔ Horizontal d) := by
  simp only [horizontal_iff, toNat_mirrorX, toNat_mirrorY]
  have := d.toNat_lt
  omega

/-! ## One frame -/

instance (lo hi x : Int) : Decidable (Outside lo hi x) := inferInstanceAs (Decidable (_ ∨ _))

/-- What a ship travels in a frame. -/
def travel (c : Setup) (speed : Int) : ℚ := (spm * speed * warp1 : Int) / c.tpf

/-- The internal coordinates are in the box. -/
structure Inside (h : Helm) : Prop where
  left : h.xMin ≤ h.xInternal
  right : h.xInternal ≤ h.xMax
  top : h.yMin ≤ h.yInternal
  bottom : h.yInternal ≤ h.yMax

/-- The box is at least as wide and as high as twice what the ship travels. -/
structure Roomy (c : Setup) (h : Helm) : Prop where
  speed : 0 ≤ h.speed
  wide : 2 * travel c h.speed ≤ (h.xMax - h.xMin : Int)
  high : 2 * travel c h.speed ≤ (h.yMax - h.yMin : Int)

/-- At a wall without wrapping the ship is mirrored into its range. -/
theorem hitX_eq {c : Setup} (hw : c.wrapGalaxy = false) (h : Helm) :
    hitX c h = { h with
      xInternal := fold h.xMin h.xMax h.xInternal
      dir := if Outside h.xMin h.xMax h.xInternal then mirrorX h.dir else h.dir
      desdir := if Outside h.xMin h.xMax h.xInternal then mirrorX h.dir else h.desdir } := by
  unfold hitX fold Outside
  rw [hw, bounce_left, bounce_right]
  by_cases hl : h.xInternal < h.xMin
  · have he : h.xInternal + 2 * (h.xMin - h.xInternal) = 2 * h.xMin - h.xInternal := by omega
    simp only [hl, true_or, if_true, Bool.not_false, he]
    rfl
  by_cases hr : h.xMax < h.xInternal
  · have he : h.xInternal - 2 * (h.xInternal - h.xMax) = 2 * h.xMax - h.xInternal := by omega
    simp only [hl, hr, or_true, if_true, if_false, Bool.not_false, he]
    rfl
  · simp only [hl, hr, or_self, if_false]

/-- The same of the other walls. -/
theorem hitY_eq {c : Setup} (hw : c.wrapGalaxy = false) (h : Helm) :
    hitY c h = { h with
      yInternal := fold h.yMin h.yMax h.yInternal
      dir := if Outside h.yMin h.yMax h.yInternal then mirrorY h.dir else h.dir
      desdir := if Outside h.yMin h.yMax h.yInternal then mirrorY h.dir else h.desdir } := by
  unfold hitY fold Outside
  rw [hw, bounce_top, bounce_bottom]
  by_cases hl : h.yInternal < h.yMin
  · have he : h.yInternal + 2 * (h.yMin - h.yInternal) = 2 * h.yMin - h.yInternal := by omega
    simp only [hl, true_or, if_true, Bool.not_false, he]
    rfl
  by_cases hr : h.yMax < h.yInternal
  · have he : h.yInternal - 2 * (h.yInternal - h.yMax) = 2 * h.yMax - h.yInternal := by omega
    simp only [hl, hr, or_true, if_true, if_false, Bool.not_false, he]
    rfl
  · simp only [hl, hr, or_self, if_false]

/-- The components of a move, and how far apart the sides are. -/
theorem step_along {c : Setup} {speed lo hi x : Int} {k : ℚ} (hs : 0 ≤ speed) (hk : |k| ≤ 1) (hlo : lo ≤ x) (hhi : x ≤ hi)
    (hw : 2 * travel c speed ≤ (hi - lo : Int)) :
    Step lo hi x ((spm * speed * warp1 : Int) * k / c.tpf) (travel c speed) := by
  have hpos : (0 : ℚ) < c.tpf := by exact_mod_cast c.tpf.pos
  have hn : (0 : ℚ) ≤ (spm * speed * warp1 : Int) := by
    apply Int.cast_nonneg
    unfold spm warp1
    omega
  refine ⟨hlo, hhi, ?_, hw⟩
  unfold travel
  rw [abs_div, abs_mul, abs_of_nonneg hn, abs_of_pos hpos]
  apply div_le_div_of_nonneg_right _ hpos.le
  exact mul_le_of_le_one_right hn hk

theorem of_move_neg {c : Setup} {speed : Int} {k : ℚ} (hs : 0 ≤ speed) (h : (spm * speed * warp1 : Int) * k / c.tpf < 0) :
    k < 0 := by
  by_contra hk
  have hpos : (0 : ℚ) < c.tpf := by exact_mod_cast c.tpf.pos
  have hn : (0 : ℚ) ≤ (spm * speed * warp1 : Int) := by
    apply Int.cast_nonneg
    unfold spm warp1
    omega
  exact absurd (div_nonneg (mul_nonneg hn (not_lt.1 hk)) hpos.le) h.not_ge

theorem of_move_pos {c : Setup} {speed : Int} {k : ℚ} (hs : 0 ≤ speed) (h : 0 < (spm * speed * warp1 : Int) * k / c.tpf) :
    0 < k := by
  by_contra hk
  have hpos : (0 : ℚ) < c.tpf := by exact_mod_cast c.tpf.pos
  have hn : (0 : ℚ) ≤ (spm * speed * warp1 : Int) := by
    apply Int.cast_nonneg
    unfold spm warp1
    omega
  exact absurd (div_nonpos_of_nonpos_of_nonneg (mul_nonpos_of_nonneg_of_nonpos hn (not_lt.1 hk)) hpos.le) h.not_ge

section Frame

variable {c : Setup} {h : Helm}

/-- Whether the move of a frame goes past the left or the right side, or past the upper or the lower one. -/
def HitsX (c : Setup) (h : Helm) : Prop := Outside h.xMin h.xMax (advance c h).xInternal
def HitsY (c : Setup) (h : Helm) : Prop := Outside h.yMin h.yMax (advance c h).yInternal

instance : Decidable (HitsX c h) := inferInstanceAs (Decidable (Outside ..))
instance : Decidable (HitsY c h) := inferInstanceAs (Decidable (Outside ..))

/-- The direction after the left and right sides, and after all. -/
def dirX (c : Setup) (h : Helm) : UInt8 := if HitsX c h then mirrorX h.dir else h.dir
def dirXY (c : Setup) (h : Helm) : UInt8 := if HitsY c h then mirrorY (dirX c h) else dirX c h

/-- A frame of a ship with no coordinates requested: fold each coordinate back, and mirror the direction. -/
theorem frame_eq (hw : c.wrapGalaxy = false) (hset : h.xySet = 0) :
    (udshipsPaliveMoveInSpace c h).xInternal = fold h.xMin h.xMax (advance c h).xInternal ∧
      (udshipsPaliveMoveInSpace c h).yInternal = fold h.yMin h.yMax (advance c h).yInternal ∧
      (udshipsPaliveMoveInSpace c h).dir = dirXY c h := by
  unfold udshipsPaliveMoveInSpace Helm.settle
  rw [if_neg (not_not_intro hset), hitX_eq hw, hitY_eq hw]
  exact ⟨rfl, rfl, rfl⟩

/-- The box is not changed. -/
theorem frame_box (hw : c.wrapGalaxy = false) :
    (udshipsPaliveMoveInSpace c h).xMin = h.xMin ∧ (udshipsPaliveMoveInSpace c h).xMax = h.xMax ∧
      (udshipsPaliveMoveInSpace c h).yMin = h.yMin ∧ (udshipsPaliveMoveInSpace c h).yMax = h.yMax := by
  unfold udshipsPaliveMoveInSpace Helm.settle
  rw [hitX_eq hw, hitY_eq hw]
  split <;> exact ⟨rfl, rfl, rfl, rfl⟩

/-- What a bounce does to the direction of a ship that moves from `h` to `h'` in a frame. A ship flies along a side it hits
only if the tables have an entry on the axis that is not 0. -/
structure Bounced (c : Setup) (h h' : Helm) : Prop where
  left : (advance c h).xInternal < h.xMin → 0 < c.cos h'.dir ∨ Vertical h.dir ∧ c.cos h.dir < 0 ∧ Vertical h'.dir
  right : h.xMax < (advance c h).xInternal → c.cos h'.dir < 0 ∨ Vertical h.dir ∧ 0 < c.cos h.dir ∧ Vertical h'.dir
  top : (advance c h).yInternal < h.yMin → 0 < c.sin h'.dir ∨ Horizontal h.dir ∧ c.sin h.dir < 0 ∧ Horizontal h'.dir
  bottom : h.yMax < (advance c h).yInternal → c.sin h'.dir < 0 ∨ Horizontal h.dir ∧ 0 < c.sin h.dir ∧ Horizontal h'.dir
  alongY : ¬ HitsY c h → h'.yInternal = (advance c h).yInternal ∧ (Horizontal h.dir ∨ SameWay (c.sin h.dir) (c.sin h'.dir))
  alongX : ¬ HitsX c h → h'.xInternal = (advance c h).xInternal ∧ (Vertical h.dir ∨ SameWay (c.cos h.dir) (c.cos h'.dir))

theorem frame_inside (hw : c.wrapGalaxy = false) (hc : Signed c) (hset : h.xySet = 0) (hi : Inside h) (hr : Roomy c h) :
    Inside (udshipsPaliveMoveInSpace c h) := by
  obtain ⟨hx, hy, -⟩ := frame_eq hw hset
  obtain ⟨h1, h2, h3, h4⟩ := frame_box (h := h) hw
  obtain ⟨hxl, hxr⟩ := (step_along (c := c) hr.speed (hc.cos_le h.dir) hi.left hi.right hr.wide).fold_mem
  obtain ⟨hyt, hyb⟩ := (step_along (c := c) hr.speed (hc.sin_le h.dir) hi.top hi.bottom hr.high).fold_mem
  constructor
  · rw [h1, hx]; exact hxl
  · rw [h2, hx]; exact hxr
  · rw [h3, hy]; exact hyt
  · rw [h4, hy]; exact hyb

theorem vertical_dirXY : Vertical (dirXY c h) ↔ Vertical h.dir := by
  unfold dirXY dirX
  split <;> split <;> simp only [vertical_mirror.1, vertical_mirror.2]

theorem horizontal_dirXY : Horizontal (dirXY c h) ↔ Horizontal h.dir := by
  unfold dirXY dirX
  split <;> split <;> simp only [horizontal_mirror.1, horizontal_mirror.2]

/-- The left and right sides turn a ship round across, and nothing else does. -/
theorem cos_dirXY (hc : Signed c) (hv : ¬ Vertical h.dir) :
    if HitsX c h then OtherWay (c.cos h.dir) (c.cos (dirXY c h)) else SameWay (c.cos h.dir) (c.cos (dirXY c h)) := by
  unfold dirXY dirX
  split
  · have hx := hc.cos_mirrorX hv
    split
    · have hy := hc.cos_mirrorY (d := mirrorX h.dir) (fun h' => hv (vertical_mirror.1.1 h'))
      exact ⟨hx.1.trans hy.2, hx.2.trans hy.1⟩
    · exact hx
  · split
    · exact hc.cos_mirrorY hv
    · exact .refl _

/-- The upper and lower sides turn it round up and down. -/
theorem sin_dirXY (hc : Signed c) (hh : ¬ Horizontal h.dir) :
    if HitsY c h then OtherWay (c.sin h.dir) (c.sin (dirXY c h)) else SameWay (c.sin h.dir) (c.sin (dirXY c h)) := by
  unfold dirXY dirX
  split
  · split
    · have hx := hc.sin_mirrorX hh
      have hy := hc.sin_mirrorY (d := mirrorX h.dir) (fun h' => hh (horizontal_mirror.1.1 h'))
      exact ⟨hx.1.trans hy.1, hx.2.trans hy.2⟩
    · exact hc.sin_mirrorY hh
  · split
    · exact hc.sin_mirrorX hh
    · exact .refl _

/-- One frame: the ship moves, and bounces off at most one wall in each direction. -/
theorem frame_bounced (hw : c.wrapGalaxy = false) (hc : Signed c) (hset : h.xySet = 0) (hi : Inside h) (hr : Roomy c h) :
    Bounced c h (udshipsPaliveMoveInSpace c h) := by
  -- each wall is looked at along its own axis
  obtain ⟨hx, hy, hd⟩ := frame_eq hw hset
  have hX := step_along (c := c) hr.speed (hc.cos_le h.dir) hi.left hi.right hr.wide
  have hY := step_along (c := c) hr.speed (hc.sin_le h.dir) hi.top hi.bottom hr.high
  have hcos := cos_dirXY (h := h) hc
  have hsin := sin_dirXY (h := h) hc
  constructor
  -- at the left the ship was going left, so it is turned to the right
  · intro hl
    have hneg := of_move_neg hr.speed (hX.hit_lower hl)
    rw [hd]
    by_cases hv : Vertical h.dir
    · exact .inr ⟨hv, hneg, vertical_dirXY.2 hv⟩
    · left
      have h := hcos hv
      rw [if_pos (show HitsX c _ from .inl hl)] at h
      exact h.2.1 hneg
  -- the right wall is its mirror image
  · intro hr'
    have hpos := of_move_pos hr.speed (hX.hit_upper hr')
    rw [hd]
    by_cases hv : Vertical h.dir
    · exact .inr ⟨hv, hpos, vertical_dirXY.2 hv⟩
    · left
      have h := hcos hv
      rw [if_pos (show HitsX c _ from .inr hr')] at h
      exact h.1.1 hpos
  -- at the top it was going up
  · intro ht
    have hneg := of_move_neg hr.speed (hY.hit_lower ht)
    rw [hd]
    by_cases hh : Horizontal h.dir
    · exact .inr ⟨hh, hneg, horizontal_dirXY.2 hh⟩
    · left
      have h := hsin hh
      rw [if_pos (show HitsY c _ from .inl ht)] at h
      exact h.2.1 hneg
  -- and at the bottom down
  · intro hb
    have hpos := of_move_pos hr.speed (hY.hit_upper hb)
    rw [hd]
    by_cases hh : Horizontal h.dir
    · exact .inr ⟨hh, hpos, horizontal_dirXY.2 hh⟩
    · left
      have h := hsin hh
      rw [if_pos (show HitsY c _ from .inr hb)] at h
      exact h.1.1 hpos
  -- between the walls of an axis the fold does nothing
  · intro hn
    refine ⟨hy.trans (fold_inside hn), ?_⟩
    by_cases hh : Horizontal h.dir
    · exact .inl hh
    · right
      have h := hsin hh
      rw [if_neg hn] at h
      rw [hd]
      exact h
  · intro hn
    refine ⟨hx.trans (fold_inside hn), ?_⟩
    by_cases hv : Vertical h.dir
    · exact .inl hv
    · right
      have h := hcos hv
      rw [if_neg hn] at h
      rw [hd]
      exact h

end Frame

/-! ## Every frame -/

/-- What a ship's player and the rest of the daemon change between two moves. -/
structure Steer where
  dir : UInt8
  desdir : UInt8
  subdir : Int
  speed : Int
  /-- New coordinates, if some are requested. -/
  input : Option (Int × Int)

def Helm.steer (h : Helm) (o : Steer) : Helm :=
  let h := { h with dir := o.dir, desdir := o.desdir, subdir := o.subdir, speed := o.speed }
  match o.input with
  | none => h
  | some (x, y) => h.set x y

/-- The ship is not too fast for the box, and is not put outside it. -/
structure Steer.Ok (c : Setup) (h : Helm) (o : Steer) : Prop where
  roomy : Roomy c (h.steer o)
  input : o.input ≠ none → Inside (h.steer o).settle

def frame (c : Setup) (h : Helm) (o : Steer) : Helm := udshipsPaliveMoveInSpace c (h.steer o)

theorem settle_settle (h : Helm) : h.settle.settle = h.settle ∧ h.settle.xySet = 0 := by
  unfold Helm.settle
  by_cases hs : h.xySet = 0
  · simp [hs]
  · simp [hs, Helm.commit]

theorem Roomy.settle {c : Setup} {h : Helm} (hr : Roomy c h) : Roomy c h.settle := by
  unfold Helm.settle
  split
  · exact ⟨hr.speed, hr.wide, hr.high⟩
  · exact hr

/-- Whatever is steered, the move starts in the box. -/
theorem Steer.Ok.inside {c : Setup} {h : Helm} {o : Steer} (ho : o.Ok c h) (hi : Inside h) (hset : h.xySet = 0) :
    Inside (h.steer o).settle := by
  cases hin : o.input with
  | some xy => exact ho.input (by rw [hin]; simp)
  | none =>
    unfold Helm.settle Helm.steer
    rw [hin]
    simp only [hset, ne_eq, not_true_eq_false, if_false]
    exact ⟨hi.left, hi.right, hi.top, hi.bottom⟩

/-- A frame keeps the ship in the box, and a bounce turns it round. -/
theorem frame_spec {c : Setup} {h : Helm} {o : Steer} (hw : c.wrapGalaxy = false) (hc : Signed c) (ho : o.Ok c h)
    (hi : Inside h) (hset : h.xySet = 0) :
    Inside (frame c h o) ∧ (frame c h o).xySet = 0 ∧ Bounced c (h.steer o).settle (frame c h o) := by
  have hin := ho.inside hi hset
  have hr := ho.roomy.settle
  obtain ⟨hs, hs0⟩ := settle_settle (h.steer o)
  have he : frame c h o = udshipsPaliveMoveInSpace c (h.steer o).settle := by
    unfold frame udshipsPaliveMoveInSpace
    rw [hs]
  rw [he]
  refine ⟨frame_inside hw hc hs0 hin hr, ?_, frame_bounced hw hc hs0 hin hr⟩
  unfold udshipsPaliveMoveInSpace
  rw [hs, hitX_eq hw, hitY_eq hw]
  exact hs0

/-- After any frames the ship is in its box; and in the next frame, if it hits a side, it flies away from that side
afterwards unless it flew along it, and its motion along the side is what it would have been. -/
theorem ship_stays_in_box {c : Setup} {h₀ h : Helm} {orders : List Steer} (hw : c.wrapGalaxy = false) (hc : Signed c)
    (hi : Inside h₀) (hset : h₀.xySet = 0) (hrun : Run (Steer.Ok c) (frame c) h₀ orders h) :
    Inside h ∧ ∀ o : Steer, o.Ok c h → Inside (frame c h o) ∧ Bounced c (h.steer o).settle (frame c h o) := by
  have hinv : Inside h ∧ h.xySet = 0 := by
    apply hrun.inv (I := fun h => Inside h ∧ h.xySet = 0)
    · rintro h o ho ⟨hi, hset⟩
      obtain ⟨h1, h2, -⟩ := frame_spec hw hc ho hi hset
      exact ⟨h1, h2⟩
    · exact ⟨hi, hset⟩
  refine ⟨hinv.1, ?_⟩
  intro o ho
  obtain ⟨h1, -, h3⟩ := frame_spec hw hc ho hinv.1 hinv.2
  exact ⟨h1, h3⟩

/-! ## The tables of the server -/

/-- A galaxy without wraparound, with the tables as they are. -/
def galaxy : Setup := { (default : Setup) with wrapGalaxy := false, cos := entry cosTable, sin := entry sinTable }

theorem entry_mem {l : List Int} (hl : l.length = 256) (d : UInt8) : (l.getD d.toNat 0, d.toNat) ∈ l.zipIdx := by
  have hd : d.toNat < l.length := by
    rw [hl]
    exact d.toNat_lt
  rw [List.mk_mem_zipIdx_iff_getElem?, List.getD_eq_getElem?_getD, List.getElem?_eq_getElem hd]
  rfl

/-- The signs and sizes of the entries. -/
theorem cos_signs (d : UInt8) : (0 < d.toNat → d.toNat < 128 → 0 < cosTable.getD d.toNat 0) ∧
    (128 < d.toNat → cosTable.getD d.toNat 0 < 0) ∧ |cosTable.getD d.toNat 0| ≤ 10000 := by
  have hsigns : ∀ e ∈ cosTable.zipIdx,
      (0 < e.2 → e.2 < 128 → 0 < e.1) ∧ (128 < e.2 → e.1 < 0) ∧ |e.1| ≤ 10000 := by decide +kernel
  have hlength : cosTable.length = 256 := by decide +kernel
  exact hsigns _ (entry_mem hlength d)

theorem sin_signs (d : UInt8) : (64 < d.toNat → d.toNat < 192 → 0 < sinTable.getD d.toNat 0) ∧
    (d.toNat < 64 ∨ 192 < d.toNat → sinTable.getD d.toNat 0 < 0) ∧ |sinTable.getD d.toNat 0| ≤ 10000 := by
  have hsigns : ∀ e ∈ sinTable.zipIdx,
      (64 < e.2 → e.2 < 192 → 0 < e.1) ∧ (e.2 < 64 ∨ 192 < e.2 → e.1 < 0) ∧ |e.1| ≤ 10000 := by decide +kernel
  have hlength : sinTable.length = 256 := by decide +kernel
  exact hsigns _ (entry_mem hlength d)

theorem entry_pos {l : List Int} {d : UInt8} (h : 0 < l.getD d.toNat 0) : 0 < entry l d :=
  div_pos (Int.cast_pos.2 h) (by norm_num)

theorem entry_neg {l : List Int} {d : UInt8} (h : l.getD d.toNat 0 < 0) : entry l d < 0 :=
  div_neg_of_neg_of_pos (Int.cast_lt_zero.2 h) (by norm_num)

theorem entry_le {l : List Int} {d : UInt8} (h : |l.getD d.toNat 0| ≤ 10000) : |entry l d| ≤ 1 := by
  unfold entry
  rw [abs_div, div_le_one (by norm_num)]
  exact_mod_cast h

theorem galaxy_signed : Signed galaxy where
  cos_pos d h h' := entry_pos ((cos_signs d).1 h h')
  cos_neg d h := entry_neg ((cos_signs d).2.1 h)
  sin_pos d h h' := entry_pos ((sin_signs d).1 h h')
  sin_neg d h := entry_neg ((sin_signs d).2.1 h)
  cos_le d := entry_le (cos_signs d).2.2
  sin_le d := entry_le (sin_signs d).2.2

/-- A ship at the upper wall that flies along it, at warp 2. -/
def grazing : Helm := { (default : Helm) with dir := 64, desdir := 64, speed := 2, xInternal := 100 }.unbox

/-- It is steered on as before. -/
def onward : Steer := ⟨64, 64, 0, 2, none⟩

theorem onward_ok : onward.Ok galaxy grazing where
  roomy := ⟨by decide, by decide +kernel, by decide +kernel⟩
  input h := absurd rfl h

theorem grazing_inside : Inside grazing := ⟨by decide, by decide, by decide, by decide⟩

theorem ship_stays_in_box_grazing : Inside (frame galaxy grazing onward) := by
  have h := ship_stays_in_box (c := galaxy) rfl galaxy_signed grazing_inside rfl (.cons onward_ok (.nil _))
  exact h.1

/-- The entry of `Sin` on the axis is not 0: the ship hits the upper wall, and the direction it bounces off in still points
to that wall. -/
theorem grazing_bounces : Signed galaxy ∧ Inside grazing ∧ onward.Ok galaxy grazing ∧
    (advance galaxy (grazing.steer onward).settle).yInternal < grazing.yMin ∧
    (frame galaxy grazing onward).dir = 64 ∧ galaxy.sin (frame galaxy grazing onward).dir < 0 := by
  refine ⟨galaxy_signed, grazing_inside, onward_ok, ?_, ?_, ?_⟩
  · decide +kernel
  · decide +kernel
  · decide +kernel

end Netrek.Motion
