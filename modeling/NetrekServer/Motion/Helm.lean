/-
Ships turn and move: `changedir` and `udships_palive_move_in_space` of `ntserv/daemon.c`, with the
coordinates of `ntserv/util.c` and the tables of `ntserv/sintab.c`.
-/
import NetrekServer.Server

namespace Netrek.Motion

/-! ## Data -/

/-- The fields of `struct player` that steer a ship, and `s_turns` of the ship. -/
structure Helm where
  dir : UInt8
  desdir : UInt8
  /-- The fraction of a direction change. -/
  subdir : Int
  speed : Int
  turns : Int
  x : Int
  y : Int
  xInternal : Int
  yInternal : Int
  /-- New requested coordinates, if any are. -/
  xInput : Int
  yInput : Int
  xySet : Int
  /-- The box that the ship is confined to. -/
  xMin : Int
  yMin : Int
  xMax : Int
  yMax : Int
  deriving DecidableEq, Inhabited

/-! ## The tables -/

/-- `Sin`, in ten thousandths. -/
def sinTable : List Int :=
  [-10000, -9997, -9988, -9973, -9952, -9925, -9892, -9853, -9808, -9757, -9701, -9638, -9570, -9496, -9416, -9330,
   -9239, -9143, -9040, -8933, -8820, -8701, -8578, -8449, -8315, -8176, -8033, -7884, -7731, -7573, -7410, -7243,
   -7072, -6896, -6716, -6533, -6345, -6153, -5958, -5759, -5557, -5351, -5142, -4930, -4715, -4497, -4277, -4054,
   -3828, -3600, -3370, -3138, -2904, -2668, -2431, -2192, -1952, -1711, -1469, -1225, -982, -737, -492, -247, -1,
   244, 489, 734, 979, 1223, 1466, 1708, 1949, 2190, 2428, 2666, 2901, 3135, 3367, 3598, 3825, 4051, 4274, 4495,
   4713, 4928, 5140, 5349, 5554, 5757, 5956, 6151, 6343, 6531, 6714, 6894, 7070, 7241, 7408, 7571, 7729, 7882, 8031,
   8175, 8314, 8448, 8576, 8700, 8818, 8931, 9039, 9141, 9238, 9329, 9415, 9495, 9569, 9637, 9700, 9757, 9808, 9852,
   9891, 9925, 9952, 9973, 9988, 9997, 10000, 9997, 9988, 9973, 9952, 9925, 9892, 9853, 9808, 9757, 9700, 9638,
   9569, 9495, 9415, 9330, 9239, 9142, 9040, 8932, 8819, 8701, 8577, 8449, 8315, 8176, 8032, 7884, 7730, 7572, 7410,
   7243, 7071, 6896, 6716, 6532, 6344, 6153, 5957, 5758, 5556, 5350, 5141, 4929, 4714, 4496, 4276, 4053, 3827, 3599,
   3369, 3137, 2903, 2667, 2430, 2191, 1951, 1710, 1468, 1225, 981, 736, 491, 246, 0, -245, -490, -735, -980, -1224,
   -1467, -1709, -1950, -2190, -2429, -2667, -2902, -3136, -3368, -3598, -3826, -4052, -4275, -4496, -4713, -4928,
   -5140, -5349, -5555, -5758, -5956, -6152, -6343, -6531, -6715, -6895, -7071, -7242, -7409, -7572, -7730, -7883,
   -8032, -8175, -8314, -8448, -8577, -8700, -8819, -8932, -9040, -9142, -9238, -9330, -9415, -9495, -9569, -9638,
   -9700, -9757, -9808, -9853, -9892, -9925, -9952, -9973, -9988, -9997]

/-- `Cos`, in ten thousandths. -/
def cosTable : List Int :=
  [0, 245, 491, 736, 980, 1224, 1467, 1710, 1951, 2191, 2430, 2667, 2903, 3137, 3369, 3599, 3827, 4052, 4275, 4496,
   4714, 4929, 5141, 5350, 5556, 5758, 5957, 6152, 6344, 6532, 6715, 6895, 7071, 7242, 7409, 7572, 7730, 7883, 8032,
   8176, 8315, 8448, 8577, 8701, 8819, 8932, 9040, 9142, 9239, 9330, 9415, 9495, 9569, 9638, 9700, 9757, 9808, 9853,
   9892, 9925, 9952, 9973, 9988, 9997, 10000, 9997, 9988, 9973, 9952, 9925, 9892, 9853, 9808, 9757, 9700, 9638,
   9570, 9495, 9416, 9330, 9239, 9142, 9040, 8933, 8819, 8701, 8578, 8449, 8315, 8176, 8032, 7884, 7731, 7573, 7410,
   7243, 7072, 6896, 6716, 6532, 6344, 6153, 5958, 5759, 5556, 5351, 5142, 4930, 4715, 4497, 4276, 4053, 3828, 3600,
   3370, 3138, 2904, 2668, 2431, 2192, 1952, 1710, 1468, 1225, 981, 737, 492, 246, 1, -244, -490, -735, -979, -1223,
   -1466, -1709, -1950, -2190, -2429, -2666, -2902, -3136, -3368, -3598, -3826, -4051, -4275, -4495, -4713, -4928,
   -5140, -5349, -5555, -5757, -5956, -6151, -6343, -6531, -6715, -6895, -7070, -7242, -7409, -7571, -7729, -7883,
   -8031, -8175, -8314, -8448, -8577, -8700, -8819, -8932, -9039, -9142, -9238, -9329, -9415, -9495, -9569, -9637,
   -9700, -9757, -9808, -9853, -9892, -9925, -9952, -9973, -9988, -9997, -10000, -9997, -9988, -9973, -9952, -9925,
   -9892, -9853, -9808, -9757, -9701, -9638, -9570, -9496, -9416, -9330, -9239, -9143, -9041, -8933, -8820, -8702,
   -8578, -8449, -8316, -8177, -8033, -7884, -7731, -7573, -7411, -7244, -7072, -6897, -6717, -6533, -6345, -6154,
   -5958, -5759, -5557, -5351, -5142, -4930, -4715, -4498, -4277, -4054, -3828, -3601, -3371, -3138, -2905, -2669,
   -2432, -2193, -1953, -1711, -1469, -1226, -982, -737, -493, -247]

/-- An entry of a table. -/
def entry (table : List Int) (d : UInt8) : ℚ := (table.getD d.toNat 0 : ℚ) / 10000

/-! ## Coordinates -/

/-- `p_x_y_box`. -/
def Helm.box (h : Helm) (xMin yMin xMax yMax : Int) : Helm :=
  { h with xMin := spi xMin, xMax := spi xMax, yMin := spi yMin, yMax := spi yMax }

/-- `p_x_y_unbox`. -/
def Helm.unbox (h : Helm) : Helm := h.box 0 0 gWidth gWidth

/-- `p_x_y_set`. -/
def Helm.set (h : Helm) (x y : Int) : Helm := { h with xInput := spi x, yInput := spi y, xySet := h.xySet + 1 }

/-- `p_x_y_commit`. -/
def Helm.commit (h : Helm) : Helm := { h with xInternal := h.xInput, yInternal := h.yInput, xySet := 0 }

/-! ## Turning -/

/-- What `p_subdir` grows by in a call of `changedir`. -/
def turnRate (newturn : Bool) (h : Helm) : Int :=
  if newturn then h.turns.tdiv (h.speed * h.speed)
  else h.turns.tdiv (if h.speed < 30 then 2 ^ h.speed.toNat else 1000000000)

/-- `changedir`. -/
def changedir (newturn : Bool) (h : Helm) : Helm :=
  if h.speed = 0 then { h with dir := h.desdir, subdir := 0 }
  else
    let subdir := h.subdir + turnRate newturn h
    let ticks := (subdir.tdiv 1000 % 2 ^ 32).toNat
    if ticks = 0 then { h with subdir := subdir }
    else
      let lo := if h.desdir < h.dir then h.desdir.toNat else h.dir.toNat
      let hi := if h.desdir < h.dir then h.dir.toNat else h.desdir.toNat
      let dir :=
        if hi - lo < ticks ∨ 256 - hi + lo < ticks then h.desdir
        else if 127 < (h.dir - h.desdir).toNat then h.dir + .ofNat ticks
        else h.dir - .ofNat ticks
      { h with dir := dir, subdir := subdir.tmod 1000 }

/-- The call in `udplayers_palive_move_in_space`, for a ship that does not explode. -/
def turnHelm (newturn : Bool) (h : Helm) : Helm := if h.dir ≠ h.desdir then changedir newturn h else h

/-! ## Moving -/

/-- The move of a ship in a frame, before the walls. -/
def advance (c : Setup) (h : Helm) : Helm :=
  { h with
    xInternal := truncate (h.xInternal + (spm * h.speed * warp1 : Int) * c.cos h.dir / c.tpf)
    yInternal := truncate (h.yInternal + (spm * h.speed * warp1 : Int) * c.sin h.dir / c.tpf) }

/-- The direction after a bounce off the side that is met straight on in the direction `toward`. -/
def bounce (toward back dir : UInt8) : UInt8 := if dir = toward then back else back - (dir - toward)

def Helm.turnTo (h : Helm) (dir : UInt8) : Helm := { h with dir := dir, desdir := dir }

/-- The ship hit the left or the right wall: it wraps around or bounces. -/
def hitX (c : Setup) (h : Helm) : Helm :=
  if h.xInternal < h.xMin then
    let dx := h.xMin - h.xInternal
    if !c.wrapGalaxy then { h with xInternal := h.xInternal + 2 * dx }.turnTo (bounce 192 64 h.dir)
    else { h with xInternal := h.xMax - dx }
  else if h.xMax < h.xInternal then
    let dx := h.xInternal - h.xMax
    if !c.wrapGalaxy then { h with xInternal := h.xInternal - 2 * dx }.turnTo (bounce 64 192 h.dir)
    else { h with xInternal := h.xMin + dx }
  else h

/-- The upper or the lower wall. -/
def hitY (c : Setup) (h : Helm) : Helm :=
  if h.yInternal < h.yMin then
    let dy := h.yMin - h.yInternal
    if !c.wrapGalaxy then { h with yInternal := h.yInternal + 2 * dy }.turnTo (bounce 0 128 h.dir)
    else { h with yInternal := h.yMax - dy }
  else if h.yMax < h.yInternal then
    let dy := h.yInternal - h.yMax
    if !c.wrapGalaxy then { h with yInternal := h.yInternal - 2 * dy }.turnTo (bounce 128 0 h.dir)
    else { h with yInternal := h.yMin + dy }
  else h

/-- The position the move starts from: new coordinates are adopted if requested. -/
def Helm.settle (h : Helm) : Helm := if h.xySet ≠ 0 then h.commit else h

/-- `udships_palive_move_in_space`. -/
def udshipsPaliveMoveInSpace (c : Setup) (h : Helm) : Helm :=
  let h := hitY c (hitX c (advance c h.settle))
  { h with x := spo h.xInternal, y := spo h.yInternal }

end Netrek.Motion
