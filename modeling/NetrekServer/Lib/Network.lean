/-
Integers in network order: the most significant byte first.
-/
import Mathlib.Data.BitVec
import Mathlib.Tactic.Common

namespace Netrek.Lib.Network

/-- The four bytes of a word. -/
def word (w : BitVec 32) : List UInt8 :=
  [UInt8.ofBitVec ((w >>> 24).setWidth 8), UInt8.ofBitVec ((w >>> 16).setWidth 8), UInt8.ofBitVec ((w >>> 8).setWidth 8),
    UInt8.ofBitVec (w.setWidth 8)]

/-- The two bytes of a half word. -/
def half (h : BitVec 16) : List UInt8 := [UInt8.ofBitVec ((h >>> 8).setWidth 8), UInt8.ofBitVec (h.setWidth 8)]

/-- The word that starts at a position. -/
def wordAt (bs : List UInt8) (k : Nat) : BitVec 32 :=
  ((bs.getD k 0).toBitVec.setWidth 32 <<< 24) ||| ((bs.getD (k + 1) 0).toBitVec.setWidth 32 <<< 16) |||
    ((bs.getD (k + 2) 0).toBitVec.setWidth 32 <<< 8) ||| (bs.getD (k + 3) 0).toBitVec.setWidth 32

/-- The half word that starts at a position. -/
def halfAt (bs : List UInt8) (k : Nat) : BitVec 16 :=
  ((bs.getD k 0).toBitVec.setWidth 16 <<< 8) ||| (bs.getD (k + 1) 0).toBitVec.setWidth 16

/-- A word is read where it was put. -/
theorem wordAt_append (bs rest : List UInt8) (w : BitVec 32) : wordAt (bs ++ (word w ++ rest)) bs.length = w := by
  unfold wordAt word
  simp only [List.getD_eq_getElem?_getD, List.getElem?_append_right (Nat.le_refl _),
    List.getElem?_append_right (Nat.le_add_right _ _), Nat.sub_self, Nat.add_sub_cancel_left, List.cons_append,
    List.nil_append, List.getElem?_cons_zero, List.getElem?_cons_succ, Option.getD_some]
  ext i hi
  simp only [BitVec.getElem_or, BitVec.getElem_shiftLeft, BitVec.getElem_setWidth, BitVec.getLsbD_setWidth,
    BitVec.getLsbD_ushiftRight]
  have hbit : w.getLsbD i = w[i] := BitVec.getLsbD_eq_getElem hi
  by_cases h8 : i < 8
  · simp [h8, show i < 24 by omega, show i < 16 by omega, hi]
  · by_cases h16 : i < 16
    · simp [h8, h16, show i < 24 by omega, show i - 8 < 8 by omega, show 8 + (i - 8) = i by omega, hbit]
    · by_cases h24 : i < 24
      · simp [h8, h16, h24, show i - 16 < 8 by omega, show 16 + (i - 16) = i by omega, show ¬i - 8 < 8 by omega, hbit]
      · simp [h8, h16, h24, show i - 24 < 8 by omega, show 24 + (i - 24) = i by omega, show ¬i - 8 < 8 by omega,
          show ¬i - 16 < 8 by omega, hbit]

theorem halfAt_append (bs rest : List UInt8) (h : BitVec 16) : halfAt (bs ++ (half h ++ rest)) bs.length = h := by
  unfold halfAt half
  simp only [List.getD_eq_getElem?_getD, List.getElem?_append_right (Nat.le_refl _),
    List.getElem?_append_right (Nat.le_add_right _ _), Nat.sub_self, Nat.add_sub_cancel_left, List.cons_append,
    List.nil_append, List.getElem?_cons_zero, List.getElem?_cons_succ, Option.getD_some]
  ext i hi
  simp only [BitVec.getElem_or, BitVec.getElem_shiftLeft, BitVec.getElem_setWidth, BitVec.getLsbD_setWidth,
    BitVec.getLsbD_ushiftRight]
  have hbit : h.getLsbD i = h[i] := BitVec.getLsbD_eq_getElem hi
  by_cases h8 : i < 8
  · simp [h8, hi]
  · simp [h8, show i - 8 < 8 by omega, show 8 + (i - 8) = i by omega, hbit]

end Netrek.Lib.Network
