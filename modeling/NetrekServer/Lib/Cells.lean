/-
Memory as cells that are numbered from the start of a block: reading and writing some of them in a
row, and what a write leaves to be read.
-/
import Mathlib.Data.List.Basic
import Mathlib.Tactic.Common

namespace Netrek.Lib

variable {α : Type}

/-- The cells of a block. -/
abbrev Cells (α : Type) := Nat → α

namespace Cells

/-- The `n` cells from `pos` on. -/
def read (m : Cells α) (pos n : Nat) : List α := (List.range n).map fun k => m (pos + k)

/-- The block with `bs` in the cells from `pos` on. -/
def write (m : Cells α) (pos : Nat) (bs : List α) : Cells α :=
  fun k => if pos ≤ k then (bs[k - pos]?).getD (m k) else m k

variable {m m' : Cells α} {pos n : Nat} {bs : List α}

@[simp] theorem length_read (m : Cells α) (pos n : Nat) : (m.read pos n).length = n := by
  simp [read]

@[simp] theorem read_zero (m : Cells α) (pos : Nat) : m.read pos 0 = [] := rfl

/-- What is read depends on the cells that are read. -/
theorem read_congr (h : ∀ k, k < n → m (pos + k) = m' (pos + k)) : m.read pos n = m'.read pos n := by
  unfold read
  refine List.map_congr_left fun k hk => ?_
  exact h k (List.mem_range.1 hk)

theorem read_add (m : Cells α) (pos a b : Nat) : m.read pos (a + b) = m.read pos a ++ m.read (pos + a) b := by
  unfold read
  rw [List.range_add, List.map_append, List.map_map]
  congr 1
  refine List.map_congr_left fun k _ => ?_
  show m (pos + (a + k)) = m (pos + a + k)
  rw [Nat.add_assoc]

/-- A cell before a write stays as it is. -/
theorem write_before {k : Nat} (h : k < pos) : m.write pos bs k = m k := by
  unfold write
  rw [if_neg (by omega)]

/-- What was written is there. -/
theorem write_at {k : Nat} (h : k < bs.length) : m.write pos bs (pos + k) = bs[k] := by
  unfold write
  rw [if_pos (by omega), Nat.add_sub_cancel_left, List.getElem?_eq_getElem h, Option.getD_some]

/-- A cell behind a write stays as it is. -/
theorem write_behind {k : Nat} (h : pos + bs.length ≤ k) : m.write pos bs k = m k := by
  unfold write
  rw [if_pos (by omega), List.getElem?_eq_none (by omega), Option.getD_none]

/-- What is read elsewhere stays as it is. -/
theorem read_write_apart {a : Nat} (h : a + n ≤ pos ∨ pos + bs.length ≤ a) :
    (m.write pos bs).read a n = m.read a n := by
  refine read_congr fun k hk => ?_
  rcases h with h | h
  · exact write_before (by omega)
  · exact write_behind (by omega)

theorem read_write_self (m : Cells α) (pos : Nat) (bs : List α) : (m.write pos bs).read pos bs.length = bs := by
  unfold read
  refine List.ext_getElem (by simp) fun k _ hk => ?_
  rw [List.getElem_map, List.getElem_range, write_at hk]

theorem read_write_before (h : n ≤ pos) : (m.write pos bs).read 0 n = m.read 0 n := by
  refine read_congr fun k hk => write_before ?_
  omega

/-- Writing behind what has been written appends to it. -/
theorem read_write_append (m : Cells α) (pos : Nat) (bs : List α) :
    (m.write pos bs).read 0 (pos + bs.length) = m.read 0 pos ++ bs := by
  rw [read_add, read_write_before (Nat.le_refl pos), Nat.zero_add, read_write_self]

end Cells

end Netrek.Lib
