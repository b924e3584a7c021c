/-
Constants of `include/defs.h`, and the 32-bit words the server keeps its flag masks in.
-/
import Mathlib.Data.BitVec

namespace Netrek

/-! ## Sizes -/

def maxPlayer : Nat := 32
/-- Reserved slots for observers and robots. -/
def testers : Nat := maxPlayer - 16
def maxPlanets : Nat := 40
def maxTorp : Nat := 8
def maxPlasma : Nat := 1
def maxWaiting : Nat := 32
/-- Docking bays of a starbase. -/
def numBays : Nat := 4
def qNameSize : Nat := 20
/-- Entries of the main message ring. -/
def maxMessage : Nat := 75
/-- Entries of each ring that leads to the daemon. -/
def maxUplink : Nat := 64
def msgLen : Nat := 80
/-- The galaxy is this far across. -/
def gWidth : Int := 100000
/-- At this range a torp explodes. -/
def expDist : Int := 350
/-- At this range a torp, a plasma torp or an exploding ship does damage. -/
def damDist : Int := 2000
def plasDamDist : Int := 2500
def shipDamDist : Int := 3000
/-- At this range a torp can be detonated. -/
def detDist : Int := 1700
/-- A player orbits at this radius. -/
def orbDist : Int := 800
/-- At this range a planet shoots at a player. -/
def pFireDist : Int := 1500
def warp1 : Int := 20
/-- Views of an exploding starbase. -/
def sbExpViews : Int := 7
/-- Maximum effective range of a tractor beam. -/
def tractDist : Int := 6000

instance : NeZero maxPlayer := ⟨by decide⟩
instance : NeZero maxPlanets := ⟨by decide⟩
instance : NeZero numBays := ⟨by decide⟩

/-! ## Scaled positions -/

/-- Scaled position multiplier. -/
def spm : Int := 256
/-- Out from a scaled position. -/
def spo (x : Int) : Int := x / spm
/-- Into a scaled position. -/
def spi (x : Int) : Int := x * spm

/-! ## Flag words -/

/-- An `int` used as a set of flags. -/
abbrev Word := BitVec 32

namespace Word

/-- The C test `w & m`. -/
def has (w m : Word) : Bool := w &&& m != 0

theorem has_iff {w m : Word} : w.has m = true ↔ w &&& m ≠ 0 := by simp [has]

/-- Setting flags leaves the others alone. -/
theorem has_or {a w m : Word} (h : w &&& m = 0) : Word.has (a ||| w) m = a.has m := by
  unfold has
  rw [BitVec.and_or_distrib_right, h]
  exact congrArg (· != 0) BitVec.or_zero

/-- A flag that is set is set. -/
theorem has_set {a m : Word} (h : m ≠ 0) : Word.has (a ||| m) m = true := by
  have hm : (a ||| m) &&& m = m := by
    ext i hi
    simp only [BitVec.getElem_and, BitVec.getElem_or]
    cases a[i] <;> cases m[i] <;> rfl
  rw [has_iff, hm]
  exact h

/-- Clearing flags leaves the others alone. -/
theorem has_andNot {a w m : Word} (h : ~~~w &&& m = m) : Word.has (a &&& ~~~w) m = a.has m := by
  unfold has
  rw [BitVec.and_assoc, h]

/-- Toggling flags leaves the others alone. -/
theorem has_xor {a w m : Word} (h : w &&& m = 0) : Word.has (a ^^^ w) m = a.has m := by
  have hx : (a ^^^ w) &&& m = (a &&& m) ^^^ (w &&& m) := by
    ext i hi
    simp only [BitVec.getElem_and, BitVec.getElem_xor]
    cases a[i] <;> cases w[i] <;> cases m[i] <;> rfl
  unfold has
  rw [hx, h]
  exact congrArg (· != 0) BitVec.xor_zero

end Word

/-! ## Player flags -/

def pfShield : Word := 0x0001
def pfRepair : Word := 0x0002
def pfBomb : Word := 0x0004
def pfOrbit : Word := 0x0008
def pfCloak : Word := 0x0010
def pfWep : Word := 0x0020
def pfEng : Word := 0x0040
def pfRobot : Word := 0x0080
def pfBeamUp : Word := 0x0100
def pfBeamDown : Word := 0x0200
def pfSelfDest : Word := 0x0400
def pfGreen : Word := 0x0800
def pfYellow : Word := 0x1000
def pfRed : Word := 0x2000
def pfPLock : Word := 0x4000
def pfPlLock : Word := 0x8000
def pfWar : Word := 0x20000
def pfPractr : Word := 0x40000
def pfDock : Word := 0x80000
def pfRefit : Word := 0x100000
def pfRefitting : Word := 0x200000
def pfTract : Word := 0x400000
def pfPress : Word := 0x800000
def pfDockOk : Word := 0x1000000
def pfSeen : Word := 0x2000000
def pfObserv : Word := 0x8000000
def pfTwarp : Word := 0x40000000
def pfBpRobot : Word := 0x80000000

/-! ## Teams -/

def nobody : Word := 0x0
def fed : Word := 0x1
def rom : Word := 0x2
def kli : Word := 0x4
def ori : Word := 0x8
def allTeam : Word := fed ||| rom ||| kli ||| ori

/-- The place of a race among the statistics that are kept for each; whoever has none comes last. -/
def raceIndex (team : Word) : Fin 5 :=
  if team = fed then 0 else if team = rom then 1 else if team = kli then 2 else if team = ori then 3 else 4

end Netrek
