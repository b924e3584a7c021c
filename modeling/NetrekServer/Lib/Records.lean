/-
A file of records of one size: whole records from the start, then perhaps a part of one. What is read of it
overwrites the start of a block.
-/
import Mathlib.Data.List.Basic
import Mathlib.Tactic.Common

namespace Netrek.Lib.Records

variable {α : Type} {size i : Nat} {file block bs : List α}

/-- The number of whole records. -/
def count (size : Nat) (file : List α) : Nat := file.length / size

def record (size : Nat) (file : List α) (i : Nat) : List α := (file.drop (i * size)).take size

/-- The block after `bs` is read into it. -/
def overlay (block bs : List α) : List α := bs ++ block.drop bs.length

theorem lt_count (hs : 0 < size) : i < count size file ↔ (i + 1) * size ≤ file.length := by
  unfold count
  rw [← Nat.succ_le_iff, Nat.le_div_iff_mul_le hs]

theorem record_zero : record size file 0 = file.take size := by
  unfold record
  rw [Nat.zero_mul, List.drop_zero]

/-- The records behind the first. -/
theorem record_drop (i : Nat) : record size (file.drop size) i = record size file (i + 1) := by
  unfold record
  rw [List.drop_drop, Nat.add_one_mul, Nat.add_comm]

theorem count_drop (hs : 0 < size) (h : size ≤ file.length) : count size file = count size (file.drop size) + 1 := by
  unfold count
  rw [List.length_drop]
  exact Nat.div_eq_sub_div hs h

theorem length_record (hs : 0 < size) (h : i < count size file) : (record size file i).length = size := by
  rw [lt_count hs, Nat.add_one_mul] at h
  unfold record
  rw [List.length_take, List.length_drop]
  omega

/-- Where there is no whole record, less than one is read. -/
theorem length_drop_lt (hs : 0 < size) (h : count size file ≤ i) : (file.drop (i * size)).length < size := by
  have h' : ¬ (i + 1) * size ≤ file.length := fun hle => absurd ((lt_count hs).2 hle) (by omega)
  rw [Nat.add_one_mul] at h'
  rw [List.length_drop]
  omega

/-! ## Reading into a block -/

theorem length_overlay (h : bs.length ≤ block.length) : (overlay block bs).length = block.length := by
  unfold overlay
  rw [List.length_append, List.length_drop]
  omega

@[simp] theorem overlay_nil (block : List α) : overlay block [] = block := rfl

/-- A whole record leaves nothing of the block. -/
theorem overlay_eq (h : block.length = bs.length) : overlay block bs = bs := by
  unfold overlay
  rw [← h, List.drop_length, List.append_nil]

/-- Reading the same again changes nothing. -/
theorem overlay_overlay (block bs : List α) : overlay (overlay block bs) bs = overlay block bs := by
  unfold overlay
  rw [List.drop_left]

end Netrek.Lib.Records
